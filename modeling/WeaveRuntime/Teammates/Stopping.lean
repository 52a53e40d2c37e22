/-
When a shutdown begins.

Every step keeps `Inv`: the jobs that the projection and the waiting
coroutines name are in the store, and a teammate that is registered has a
snapshot. So a shutdown finds both, and the one thing that can go wrong is
that the job has ended (`begins_iff_job_open`).

A run that ends leaves its job in the projection. It is there until the
next call finds nothing to do, or until the teammate is registered again.
-/
import WeaveRuntime.Teammates.HeldJobs

namespace WeaveRuntime.Teammates

open Lib
open Python
open Jobs (Env Fields JobRecord JobStatus JobsState
  LawfulJobStore Raised compatStatus lawfulInMemory
  validateJobTransition_eq_ok)

-- ======== the shutdown

structure Shows (p : TeammateProjection) (snapshot : TeammateStateSnapshot) :
    Prop where
  lifecycleState : p.lifecycleState = snapshot.state
  currentRunId : p.currentRunId = snapshot.currentRunId
  currentMessageId : p.currentMessageId = snapshot.currentMessageId
  waitingPermissionId : p.waitingPermissionId = snapshot.waitingPermissionId
  shutdownWorkflowId : p.shutdownWorkflowId = snapshot.shutdownWorkflowId
  agentName : p.agentName = snapshot.agentName
  sessionId : p.sessionId = snapshot.sessionId

namespace BoundService

variable {ι κ σ α : Type} (M : TeammateMailbox ι κ) (L : LawfulJobStore σ)
  (config : OrchestrationConfig)

/-- The stopping snapshot is stored, under the workflow, with a projection
that shows it; the job the projection names is running. -/
structure Stopping (w : UuidHex) (taskId : Option String)
    (next : TeammateStateSnapshot) (p : TeammateProjection)
    (t : BoundService ι κ σ) : Prop where
  state : next.state = .stopping
  workflow : next.shutdownWorkflowId = some w
  held : t.service.held = some next
  stored : t.service.stateFile = some next
  projected : t.service.projection = some p
  shows : Shows p next
  task : p.taskId = taskId
  running : ∀ jobId, taskId = some jobId → p.taskStatus = some .running
    ∧ ∃ record, L.store.get t.jobs.store jobId = some record
      ∧ record.status = .running

/-- `begin_shutdown` from `s` returns a stopping snapshot, and everything
agrees with it. -/
def Begins (w : UuidHex) (env : Env) (s : BoundService ι κ σ) : Prop :=
  ∃ next p t, (beginShutdown M L.store config w env).run s
      = (.ok (some next), t)
    ∧ Stopping L w s.service.heldJob next p t

variable {M L config} {s : BoundService ι κ σ}

theorem run_snapshot_known {s : Service ι κ} (h : s.Known) :
    ∃ found t, (Service.snapshot M).run s = (.ok (some found), t)
      ∧ t.projection = s.projection := by
  unfold Service.snapshot
  rw [Method.run_read_bind]
  cases hheld : s.held with
  | some found => exact ⟨found, s, rfl, rfl⟩
  | none =>
    unfold Service.readState
    dsimp only
    rw [Method.run_read_bind]
    cases hstored : s.stateFile with
    | some stored => exact ⟨M.readState stored, _, rfl, rfl⟩
    | none =>
      rcases h with h | h
      · rw [hheld] at h
        cases h
      · rw [hstored] at h
        cases h

/-- The rest of `begin_shutdown` once the snapshot is written. -/
def projectStopping (S : Jobs.JobStore σ) (config : OrchestrationConfig)
    (next : TeammateStateSnapshot) (taskId : Option String)
    (metadata : Fields) (env : Env) :
    Call ι κ σ (Option TeammateStateSnapshot) := do
  updateHeldJob S taskId metadata env
  onService (Service.setProjection next taskId
    (taskId.map fun _ => .running) (some "stopping")
    (some ("Teammate '" ++ config.teammateId ++ "' is stopping")))
  pure (some next)

/-- What `begin_shutdown` says to the job service. -/
def stoppingMetadata (next : TeammateStateSnapshot) (w : UuidHex) : Fields :=
  [(.str "session_id", Jobs.optText next.sessionId),
    (.str "teammate_state", .str next.state.value),
    (.str "shutdown_workflow_id", .str w.text),
    (.str "kind", .str "teammate_projection")]

theorem run_beginShutdown (h : s.service.Known) (w : UuidHex) (env : Env) :
    ∃ next t, (beginShutdown M L.store config w env).run s
        = (projectStopping L.store config next s.service.heldJob
          (stoppingMetadata next w) env).run t
      ∧ next.state = .stopping ∧ next.shutdownWorkflowId = some w
      ∧ t.service.held = some next ∧ t.service.stateFile = some next
      ∧ t.jobs = s.jobs := by
  obtain ⟨found, u, hrun, hprojection⟩ := run_snapshot_known (M := M) h
  have hsnapshot : (onService (Service.snapshot M)).run s
      = (.ok (some found), { s with service := u }) := by
    unfold onService
    dsimp only
    rw [hrun]
  have hheld : u.heldJob = s.service.heldJob := by
    unfold Service.heldJob
    rw [hprojection]
  refine ⟨found.stopping w, { s with service := { u with
    held := some (found.stopping w)
    stateFile := some (found.stopping w) } }, ?_, rfl, rfl, rfl, rfl, rfl⟩
  unfold beginShutdown
  rw [Method.run_bind_of_ok hsnapshot, ← hheld]
  rfl

theorem updateHeldJob_refused {jobId : String} {current : JobRecord}
    {e : Raised} (hget : L.store.get s.jobs.store jobId = some current)
    (hgate : compatStatus current (some .running) = .error e)
    (metadata : Fields) (env : Env) :
    (updateHeldJob L.store (some jobId) metadata env :
      Call ι κ σ Unit).run s = (.error (.thrown (thrownBy e)), s) := by
  have hstatus : compatStatus current
      (some TaskStatus.running.toJobStatus) = .error e := hgate
  exact updateProjectionJob_raises (updateCompat_refused hget hstatus)

theorem updateHeldJob_accepted {jobId : String} {current : JobRecord}
    {next : JobStatus} (hget : L.store.get s.jobs.store jobId = some current)
    (hgate : compatStatus current (some .running) = .ok next)
    (metadata : Fields) (env : Env) :
    ∃ jobs, (updateHeldJob L.store (some jobId) metadata env :
        Call ι κ σ Unit).run s = (.ok (), { s with jobs := jobs })
      ∧ ∃ record, L.store.get jobs.store jobId = some record
        ∧ record.status = .running := by
  have hstatus : compatStatus current
      (some TaskStatus.running.toJobStatus) = .ok next := hgate
  obtain ⟨jobs, hrun, -, record, hrecord, hnext⟩ :=
    updateProjectionJob_accepted hget hstatus
  refine ⟨jobs, hrun, record, hrecord, hnext.trans ?_⟩
  exact validateJobTransition_eq_ok hgate

theorem stopping_of_updated {next : TeammateStateSnapshot}
    {t : BoundService ι κ σ} {w : UuidHex} (hstate : next.state = .stopping)
    (hworkflow : next.shutdownWorkflowId = some w)
    (hheld : t.service.held = some next)
    (hstored : t.service.stateFile = some next) {taskId : Option String}
    {metadata : Fields} {env : Env} {jobs : JobsState σ}
    (hupdate : (updateHeldJob L.store taskId metadata env).run t
      = (.ok (), { t with jobs := jobs }))
    (hrunning : ∀ jobId, taskId = some jobId →
      ∃ record, L.store.get jobs.store jobId = some record
        ∧ record.status = .running) :
    ∃ p u, (projectStopping L.store config next taskId metadata env).run t
        = (.ok (some next), u)
      ∧ Stopping L w taskId next p u := by
  unfold projectStopping
  rw [Method.run_bind_of_ok hupdate]
  refine ⟨_, _, rfl, hstate, hworkflow, hheld, hstored, rfl,
    ⟨rfl, rfl, rfl, rfl, rfl, rfl, rfl⟩, rfl, fun jobId hid => ?_⟩
  refine ⟨?_, hrunning jobId hid⟩
  rw [hid]
  rfl

/-- A shutdown begins just when the job the projection names has not
ended. -/
theorem begins_iff (hs : Grounded L s) (hknown : s.service.Known) (w : UuidHex)
    (env : Env) :
    Begins M L config w env s
      ↔ ∀ jobId record, s.service.heldJob = some jobId →
        L.store.get s.jobs.store jobId = some record →
        record.terminal = false := by
  obtain ⟨next, t, hrun, hstate, hworkflow, hheld, hstored, hjobs⟩ :=
    run_beginShutdown (M := M) (L := L) hknown w env
  have hkept := hs.held
  unfold Begins
  rw [hrun]
  cases htask : s.service.heldJob with
  | none =>
    have hupdate : (updateHeldJob L.store none (stoppingMetadata next w)
        env).run t = (.ok (), { t with jobs := t.jobs }) := rfl
    obtain ⟨p, u, hends, hstopping⟩ := stopping_of_updated
      hstate hworkflow hheld hstored hupdate fun _ h => by cases h
    refine iff_of_true ⟨next, p, u, hends, hstopping⟩ fun _ _ h => ?_
    cases h
  | some jobId =>
    rw [htask] at hkept
    obtain ⟨current, hget⟩ := Option.isSome_iff_exists.1
      (hkept jobId (List.mem_singleton_self _))
    rw [← hjobs] at hget ⊢
    cases hgate : compatStatus current (some .running) with
    | error e =>
      -- the job has ended, and the exception leaves the old projection
      refine iff_of_false (fun h => ?_) fun h => ?_
      · obtain ⟨found, p, u, hends, -⟩ := h
        unfold projectStopping at hends
        rw [Method.run_bind_of_error
          (updateHeldJob_refused hget hgate _ env)] at hends
        cases hends
      · obtain ⟨_, hok⟩ := (compatStatus_running current).2
          (h jobId current rfl hget)
        rw [hgate] at hok
        cases hok
    | ok status =>
      have hopen := (compatStatus_running current).1 ⟨status, hgate⟩
      refine iff_of_true ?_ fun id record hid hrecord => ?_
      · obtain ⟨jobs, hupdate, hrunning⟩ := updateHeldJob_accepted
          hget hgate (stoppingMetadata next w) env
        obtain ⟨p, u, hends, hstopping⟩ := stopping_of_updated
          hstate hworkflow hheld hstored hupdate
          fun _ hid => Option.some.inj hid ▸ hrunning
        exact ⟨next, p, u, hends, hstopping⟩
      · cases hid
        rw [hget] at hrecord
        cases hrecord
        exact hopen

-- ========= after a run

/-- The projection names a job that has ended. -/
def HoldsEnded (L : LawfulJobStore σ) (t : BoundService ι κ σ) : Prop :=
  ∃ jobId record, t.service.heldJob = some jobId
    ∧ L.store.get t.jobs.store jobId = some record ∧ record.terminal = true

end BoundService

-- ============ the runs

namespace BoundOrchestration

open BoundService

variable {ι κ σ α : Type} {M : TeammateMailbox ι κ} {L : LawfulJobStore σ}
  {config : OrchestrationConfig}

/-- What the job service takes where a step may create a job. -/
def Action.creating : Action → Option Env
  | .processNextWorkItem _ env => some env
  | .resume _ env => some env
  | _ => none

/-- No job is kept under the id `uuid4` gives the step. -/
def FreshId (L : LawfulJobStore σ) (t : BoundOrchestration ι κ σ)
    (action : Action) : Prop :=
  ∀ env, action.creating = some env → Fresh L env t.bound.jobs

/-- The jobs that are named are kept, by the service and by every coroutine
that waits. -/
structure Inv (L : LawfulJobStore σ) (t : BoundOrchestration ι κ σ) :
    Prop where
  sound : Grounded L t.bound
  processing : ∀ frame, t.processing = some frame →
    KeptJobs L t.bound.jobs (processJobs frame)
  recovering : ∀ frame ∈ t.recovering,
    KeptJobs L t.bound.jobs (recoverJobs frame)

theorem frameOf_eq_some {φ : Type}
    {outcome : Except ServiceError (Service.Progress α φ)} {frame : φ}
    (h : Service.frameOf outcome = some frame) :
    outcome = .ok (.waiting frame) := by
  unfold Service.frameOf at h
  split at h
  · cases h
    rfl
  · cases h

variable {t : BoundOrchestration ι κ σ} {creates : Bool}

theorem inv_call (ht : Inv L t) {m : Call ι κ σ α} {Q : α → JobsState σ → Prop}
    (hm : Safe L creates m t.bound Q) : Inv L (t.call m) :=
  ⟨hm.sound, fun frame h => (ht.processing frame h).mono hm.grows,
    fun frame h => (ht.recovering frame h).mono hm.grows⟩

theorem inv_process (ht : Inv L t) {m : Call ι κ σ Service.Processing}
    (hm : Safe L creates m t.bound (Waits processJobs L)) :
    Inv L (t.process m) := by
  refine ⟨hm.sound, fun frame h => ?_,
    fun frame h => (ht.recovering frame h).mono hm.grows⟩
  exact hm.result _ (frameOf_eq_some h) frame rfl

theorem inv_recoverWith (ht : Inv L t) {others : List Service.RecoverFrame}
    (hothers : ∀ frame ∈ others, frame ∈ t.recovering)
    {m : Call ι κ σ (Service.Progress (List TeammateRecoveryResult)
      Service.RecoverFrame)}
    (hm : Safe L creates m t.bound (Waits recoverJobs L)) :
    Inv L (t.recoverWith others m) := by
  refine ⟨hm.sound, fun frame h => (ht.processing frame h).mono hm.grows,
    fun frame h => ?_⟩
  rcases List.mem_append.1 h with h | h
  · exact (ht.recovering frame (hothers frame h)).mono hm.grows
  · exact hm.result _ (frameOf_eq_some (Option.mem_toList.1 h)) frame rfl

theorem inv_step {t' : BoundOrchestration ι κ σ} {action : Action}
    (ht : Inv L t) (hstep : (system M L.store config).step t action = some t')
    (hfresh : FreshId L t action) : Inv L t' := by
  have hs := ht.sound
  cases action with
  | registerTeammate request =>
    cases hstep
    have hm : Safe L false (onService (BoundService.registerTeammate M
        config request)) t.bound fun _ _ => True :=
      safe_onService_nil (Service.tames_registerTeammate M config request)
        hs
    exact inv_call ht hm
  | publishWorkItem item messageId correlationId a =>
    cases hstep
    have hm : Safe L false (onService (Service.publishWorkItem M config item
        messageId correlationId a)) t.bound fun _ _ => True :=
      safe_onService_nil (Service.tames_publishWorkItem M config item
        messageId correlationId a) hs
    exact inv_call ht hm
  | processNextWorkItem a env =>
    replace hstep : (if t.processing.isSome then none
      else some (t.process (BoundService.processNextWorkItem M L.store
        config a env))) = some t' := hstep
    split at hstep
    · cases hstep
    · cases hstep
      exact inv_process ht
        (safe_processNextWorkItem M config hs (hfresh env rfl) a)
  | resume a env =>
    obtain ⟨frame, hframe, ht'⟩ := Option.map_eq_some_iff.1 hstep
    rw [← ht']
    exact inv_process ht (safe_resume M config hs (hfresh env rfl) frame
      (ht.processing frame hframe) a)
  | recover a env =>
    cases hstep
    exact inv_recoverWith ht (fun _ h => h) (safe_recover M config hs a env)
  | resumeRecover index a env =>
    obtain ⟨frame, hframe, ht'⟩ := Option.map_eq_some_iff.1 hstep
    rw [← ht']
    have hmem := List.mem_of_getElem? hframe
    exact inv_recoverWith ht (fun _ h => List.mem_of_mem_eraseIdx h)
      (safe_resumeRecover M config hs frame (ht.recovering frame hmem) a
        env)
  | beat now =>
    obtain ⟨run, -, ht'⟩ := Option.map_eq_some_iff.1 hstep
    rw [← ht']
    have hm : Safe L false (onService (Service.beat M run now)) t.bound
        fun _ _ => True :=
      safe_onService_nil (Service.tames_beat M run now) hs
    exact inv_call ht hm
  | enterPermissionWait permissionId env =>
    cases hstep
    exact inv_call ht (safe_enterPermissionWait M hs permissionId env)
  | exitPermissionWait permissionId env =>
    cases hstep
    exact inv_call ht (safe_exitPermissionWait M hs permissionId env)
  | beginShutdown workflowId env =>
    cases hstep
    exact inv_call ht (safe_beginShutdown M config hs workflowId env)

theorem inv_start (mailbox : MailboxState ι κ)
    (stateFile : Option TeammateStateSnapshot) (jobs : JobsState σ) :
    Inv L (start mailbox stateFile jobs) := by
  refine ⟨⟨keptJobs_nil _, fun h => ?_⟩, fun _ h => ?_, fun _ h => ?_⟩
  · cases h
  · cases h
  · exact absurd h List.not_mem_nil

/-- In every state of a run, a shutdown of a registered teammate begins
just when the job its projection names, if it names one, has not ended. -/
theorem begins_iff_job_open {mailbox : MailboxState ι κ}
    {stateFile : Option TeammateStateSnapshot} {jobs : JobsState σ}
    {actions : List Action}
    (hfresh : ∀ u action u', (system M L.store config).Takes
      (start mailbox stateFile jobs) actions u action u' →
      FreshId L u action)
    (hvisits : (system M L.store config).Visits
      (start mailbox stateFile jobs) actions t)
    (hregistered : t.bound.service.registration.isSome)
    (workflowId : UuidHex) (env : Env) :
    Begins M L config workflowId env t.bound
      ↔ ∀ jobId record, t.bound.service.heldJob = some jobId →
        L.store.get t.bound.jobs.store jobId = some record →
        record.terminal = false := by
  have ht : Inv L t := System.invariant_of_takes
    (fun u action u' hu hstep hid => inv_step hu hstep hid)
    (inv_start mailbox stateFile jobs) hfresh hvisits
  exact begins_iff ht.sound (ht.sound.known hregistered) workflowId env

-- ==== a run that completes

def firstId : UuidHex := ⟨"0000000000000000000000000000001a", by decide⟩

def secondId : UuidHex := ⟨"0000000000000000000000000000002b", by decide⟩

/-- The job service at some time, with an id of `uuid4`. -/
def sampleEnv (hex : UuidHex) : Env where
  now := sampleTime
  hex := hex
  registered _ := false
  bound := true

def sampleRegister : BoundService.RegisterRequest where
  agentName := "agent"
  sessionId := "session"
  workingDirectory := "/work"
  metadata := []
  claimLeaseMs := none
  retryMaxAttempts := none

def sampleWork : Service.WorkItem where
  prompt := "go"
  sender := sampleItem.sender
  kind := "work_item"
  correlationId := none
  payload := []
  payloadRef := none
  requestedModelRoute := none
  requestedModel := none
  requestedEffort := none
  requestedPermissionMode := none
  requestedIsolation := none
  maxTurns := none

/-- Nothing is there yet. -/
def sampleStart : BoundOrchestration UuidHex (UuidHex × String)
    Jobs.InMemoryJobStore :=
  start (.init : InMemoryMailbox) none ⟨.empty, []⟩

abbrev sampleSystem : System (BoundOrchestration UuidHex (UuidHex × String)
    Jobs.InMemoryJobStore) Action :=
  system InMemory.mailbox lawfulInMemory.store Service.sampleOrchestration

def sampleRegistered : BoundOrchestration UuidHex (UuidHex × String)
    Jobs.InMemoryJobStore :=
  sampleStart.call (onService (BoundService.registerTeammate
    InMemory.mailbox Service.sampleOrchestration sampleRegister))

theorem begins_iff_job_open_registered :
    Begins InMemory.mailbox lawfulInMemory Service.sampleOrchestration
        firstId (sampleEnv secondId) sampleRegistered.bound
      ↔ ∀ jobId record,
        sampleRegistered.bound.service.heldJob = some jobId →
        lawfulInMemory.store.get sampleRegistered.bound.jobs.store jobId
          = some record →
        record.terminal = false := by
  have hvisits : sampleSystem.Visits sampleStart
      [.registerTeammate sampleRegister] sampleRegistered :=
    System.Visits.finish rfl
  refine begins_iff_job_open (fun u action u' h env henv => ?_) hvisits rfl
    firstId (sampleEnv secondId)
  rcases (System.takes_cons rfl).1 h with ⟨-, rfl, -⟩ | h
  · cases henv
  · obtain ⟨p, q, heq, -⟩ := h
    cases p with
    | nil => cases heq
    | cons _ _ => cases heq

def completing : List Action :=
  [.registerTeammate sampleRegister,
    .publishWorkItem sampleWork firstId firstId Service.sampleAnswers,
    .processNextWorkItem Service.sampleAnswers (sampleEnv firstId),
    .resume Service.sampleAnswers (sampleEnv secondId),
    .resume Service.sampleAnswers (sampleEnv secondId),
    .resume Service.sampleAnswers (sampleEnv secondId)]

/-- No job has the id. -/
private def unused (t : BoundOrchestration UuidHex (UuidHex × String)
    Jobs.InMemoryJobStore) (action : Action) : Bool :=
  action.creating.all fun env =>
    (lawfulInMemory.store.get t.bound.jobs.store env.hex.text).isNone

theorem freshId_completing (u : BoundOrchestration UuidHex
      (UuidHex × String) Jobs.InMemoryJobStore) (action : Action)
    (u' : BoundOrchestration UuidHex (UuidHex × String)
      Jobs.InMemoryJobStore)
    (h : sampleSystem.Takes sampleStart completing u action u') :
    FreshId lawfulInMemory u action := by
  have hchecks : sampleSystem.checks unused sampleStart completing = true := by
    decide
  have hunused := System.check_of_takes hchecks h
  intro env henv jobId hkept hname
  unfold unused at hunused
  rw [henv] at hunused
  -- in memory a job is kept under its own id
  have hid : jobId = env.hex.text := hname
  have hnone : (lawfulInMemory.store.get u.bound.jobs.store
    env.hex.text).isNone = true := hunused
  unfold Kept at hkept
  rw [hid, Option.isNone_iff_eq_none.1 hnone] at hkept
  cases hkept

/-- After the run a shutdown raises. -/
theorem completed_job_refuses_shutdown : ¬ ∀ (actions : List Action)
    (t : BoundOrchestration UuidHex (UuidHex × String)
      Jobs.InMemoryJobStore) (workflowId : UuidHex) (env : Env),
    (∀ u action u', sampleSystem.Takes sampleStart actions u action u' →
      FreshId lawfulInMemory u action) →
    sampleSystem.Visits sampleStart actions t →
    t.bound.service.registration.isSome →
    Begins InMemory.mailbox lawfulInMemory Service.sampleOrchestration
      workflowId env t.bound := by
  intro hall
  have htest : (sampleSystem.run sampleStart completing).any (fun t =>
      t.processing.isNone && t.bound.service.registration.isSome
        && ((BoundService.beginShutdown InMemory.mailbox lawfulInMemory.store
          Service.sampleOrchestration secondId (sampleEnv secondId)).run
            t.bound).1.toOption.isNone) = true := by
    decide +kernel
  obtain ⟨t, hrun, htest⟩ := (Option.any_eq_true ..).1 htest
  obtain ⟨htest, hraises⟩ := (Bool.and_eq_true ..).mp htest
  obtain ⟨-, hregistered⟩ := (Bool.and_eq_true ..).mp htest
  obtain ⟨next, p, u, hbegins, -⟩ := hall completing t secondId
    (sampleEnv secondId) freshId_completing (System.Visits.finish hrun)
    hregistered
  rw [hbegins] at hraises
  cases hraises

end BoundOrchestration

end WeaveRuntime.Teammates
