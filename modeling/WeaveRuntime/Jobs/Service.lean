/-
The job service.

A method runs without interruption between two awaits, so a method with
an await is a chain of segments: each segment is a `Method` on the store
and the stop handlers, and ends by returning or with a call that is
`Suspended` until its executor or handler answers. While a call is
suspended any other call may run, which is the whole of the interleaving:
`service` has one action for the start of a call and one for the answer a
suspended call resumes with.

What a segment takes from outside is its `Env`: the time, the id `uuid4()`
generates, which executor kinds are registered at that moment, and whether
the service is bound to the runtime. Executors and handlers are known by
what they answer; a handler that is called without an await is one that
answers at once. Watchers are notified of a write and write nothing, and
are left out.
-/
import WeaveRuntime.Jobs.Store
import WeaveRuntime.Lib.Method
import WeaveRuntime.Lib.System

namespace WeaveRuntime.Jobs

open Lib
open Python

-- =============== calls

/-- What a segment takes from outside. -/
structure Env where
  now : Datetime
  hex : UuidHex
  registered : String → Bool
  bound : Bool

/-- The fields a compat update can change; `none` is `_MISSING`. -/
structure CompatChanges where
  status : Option JobStatus
  description : Option PyVal
  result : Option PyVal
  error : Option PyVal
  metadata : Fields
  stopRequested : Option PyVal

/-- The calls of the service that may write, with their arguments. -/
inductive Op where
  | createOrUpdateCompat (jobId summary : String)
      (description : Option String) (metadata : Fields)
  | updateCompat (jobId : String) (changes : CompatChanges)
  | registerCompatStopHandler (jobId : String)
  | unregisterCompatStopHandler (jobId : String)
  | submit (request : JobSubmitRequest) (hasContext : Bool)
  | stop (jobId : String) (scope : Option JobScopeFilter)
  | recoverInflight
  | applyStartResult (jobId : String) (result : JobStartResult)
  | applyStopResult (jobId : String) (result : JobStopResult)
  | applyRecoveryResult (jobId : String) (result : JobRecoveryResult)

/-- A call at one of its awaits. -/
inductive Suspended where
  | submit (pending : JobRecord)
  | stop (jobId : String)
  | stopHandler (jobId : String) (accepted : JobRecord)
  | recover (jobId : String) (rest recovered : List JobRecord)

/-- What an await ends with. -/
inductive Answer where
  | started (result : JobStartResult)
  | stopped (result : JobStopResult)
  | handled
  | recovered (result : Option JobRecoveryResult)
  | raised (text : String)
  | cancelled

/-- The awaited call may end so. -/
def Answer.answers : Answer → Suspended → Bool
  | .started _, .submit _ => true
  | .stopped _, .stop _ => true
  | .handled, .stopHandler _ _ => true
  | .recovered _, .recover _ _ _ => true
  | .raised _, _ => true
  | .cancelled, _ => true
  | _, _ => false

/-- What a call returns. -/
inductive Reply where
  | record (r : JobRecord)
  | records (rs : List JobRecord)
  | none

/-- How a segment ends, unless it raises. -/
inductive Progress where
  | returns (reply : Reply)
  | awaits (call : Suspended)

-- =========== the state

/-- The store, and the ids of the jobs with a compat stop handler. -/
structure JobsState (σ : Type) where
  store : σ
  compatStopHandlers : List String

abbrev JobMethod (σ : Type) := Method (JobsState σ) Raised

section Operations

variable {σ : Type} (S : JobStore σ)

def getSync (jobId : String) (scope : Option JobScopeFilter) :
    JobMethod σ (Option JobRecord) :=
  .read fun s => (S.get s.store jobId).filter fun record =>
    (scope.map fun f => f.accepts record).getD true

def upsertRecord (record : JobRecord) : JobMethod σ JobRecord := do
  .write fun s => { s with store := S.upsert s.store record }
  pure record

def hasCompatStopHandler (jobId : String) : JobMethod σ Bool :=
  .read fun s => decide (jobId ∈ s.compatStopHandlers)

/-- A record that must be there. -/
def requireRecord (jobId : String) : JobMethod σ JobRecord := do
  let current ← getSync S jobId none
  .lift (orRaise current (.keyError jobId))

-- ====== compat records

variable (env : Env)

def compatRecord (existing : Option JobRecord) (stoppable : Bool)
    (jobId summary : String) (description : Option String)
    (metadata : Fields) : JobRecord :=
  let text := fun key => coerceOptionalString (getField metadata key)
  { jobId
    executorKind := compatExecutorKind metadata none
    summary
    description
    status := .pending
    capabilities := some ⟨stoppable⟩
    stopRequested := false
    createdAt := (existing.map (·.createdAt)).getD env.now
    updatedAt := env.now
    startedAt := existing.bind (·.startedAt)
    endedAt := existing.bind (·.endedAt)
    sessionId := text "session_id"
    teamId := text "team_id"
    submittedBy := coerceOptionalString
      (pyOr (getField metadata "submitted_by") (getField metadata "agent"))
    projectionKind := coerceOptionalString
      (pyOr (getField metadata "projection_kind") (getField metadata "kind"))
    parentRunId := text "run_id"
    parentTurnId := text "turn_id"
    result := existing.bind (·.result)
    error := existing.bind (·.error)
    metadata
    sidecarRefs := compatSidecarRefs existing metadata }

def createOrUpdateCompat (jobId summary : String)
    (description : Option String) (metadata : Fields) :
    JobMethod σ JobRecord := do
  let existing ← getSync S jobId none
  let stoppable ← hasCompatStopHandler jobId
  upsertRecord S
    (compatRecord env existing stoppable jobId summary description metadata)

def updatedCompatRecord (current : JobRecord) (nextStatus : JobStatus)
    (stoppable : Bool) (changes : CompatChanges) : JobRecord :=
  let merged := updateFields current.metadata changes.metadata
  let textOr := fun value (kept : Option String) =>
    (coerceOptionalString value).or kept
  { current with
    executorKind := compatExecutorKind merged (some current)
    description :=
      (changes.description.map coerceOptionalString).getD current.description
    status := nextStatus
    capabilities := some ⟨stoppable⟩
    stopRequested :=
      (changes.stopRequested.map PyVal.truthy).getD current.stopRequested
    updatedAt := env.now
    startedAt := startedAtAfter current nextStatus env.now
    endedAt := endedAtAfter current nextStatus env.now
    sessionId := textOr (getField merged "session_id") current.sessionId
    teamId := textOr (getField merged "team_id") current.teamId
    submittedBy := textOr
      (pyOr (getField merged "submitted_by") (getField merged "agent"))
      current.submittedBy
    projectionKind := textOr
      (pyOr (getField merged "projection_kind") (getField merged "kind"))
      current.projectionKind
    parentRunId := textOr (getField merged "run_id") current.parentRunId
    parentTurnId := textOr (getField merged "turn_id") current.parentTurnId
    result := (changes.result.map coerceOptionalMapping).getD current.result
    error := (changes.error.map coerceOptionalString).getD current.error
    metadata := merged
    sidecarRefs := compatSidecarRefs (some current) merged }

/-- The status a compat update asks for. -/
def compatStatus (current : JobRecord) (status : Option JobStatus) :
    Except Raised JobStatus :=
  match status with
  | none => .ok current.status
  | some status =>
    validateJobTransition current.status status .compat current.jobId

def updateCompat (jobId : String) (changes : CompatChanges) :
    JobMethod σ JobRecord := do
  let current ← requireRecord S jobId
  let nextStatus ← .lift (compatStatus current changes.status)
  let stoppable ← hasCompatStopHandler jobId
  upsertRecord S (updatedCompatRecord env current nextStatus stoppable changes)

def withStoppable (record : JobRecord) (stoppable : Bool) : JobRecord :=
  { record with capabilities := some ⟨stoppable⟩ }

def registerCompatStopHandler (jobId : String) : JobMethod σ Unit := do
  .write fun s =>
    { s with compatStopHandlers := jobId :: s.compatStopHandlers }
  let record ← getSync S jobId none
  match record with
  | some record =>
    if isStoppable record then pure ()
    else do
      let _ ← upsertRecord S (withStoppable record true)
      pure ()
  | none => pure ()

def unregisterCompatStopHandler (jobId : String) : JobMethod σ Unit :=
  .write fun s => { s with
    compatStopHandlers := s.compatStopHandlers.filter (· ≠ jobId) }

-- ============= results

/-- `left or right`, of two tuples. -/
def refsOr (left right : List JobSidecarRef) : List JobSidecarRef :=
  if left.isEmpty then right else left

def applyStartResult (jobId : String) (result : JobStartResult) :
    JobMethod σ JobRecord := do
  let current ← requireRecord S jobId
  let nextStatus ← .lift
    (validateJobTransition current.status result.status .start jobId)
  upsertRecord S (applyResultPatch current env.now nextStatus
    (some result.capabilities) result.metadata
    (refsOr result.sidecarRefs current.sidecarRefs) result.result
    result.error current.stopRequested)

def applyStopResult (jobId : String) (result : JobStopResult) :
    JobMethod σ JobRecord := do
  let current ← requireRecord S jobId
  let nextStatus ← .lift
    (validateJobTransition current.status result.status .stop jobId)
  upsertRecord S (applyResultPatch current env.now nextStatus none
    result.metadata (refsOr result.sidecarRefs current.sidecarRefs)
    result.result result.error result.stopRequested)

def applyRecoveryResult (jobId : String) (result : JobRecoveryResult) :
    JobMethod σ JobRecord := do
  let current ← requireRecord S jobId
  let nextStatus ← .lift
    (validateJobTransition current.status result.status .recovery jobId)
  upsertRecord S (applyResultPatch current env.now nextStatus
    (some result.capabilities) result.metadata
    (refsOr result.sidecarRefs current.sidecarRefs) result.result
    result.error current.stopRequested)

-- ===== submit and stop

def executorContext : Except Raised Unit :=
  raiseIf (env.bound = false)
    (.runtimeError "Job service is not bound to runtime services")

def submittedJobId (request : JobSubmitRequest) : String :=
  match request.requestedJobId with
  | some jobId => if jobId = "" then env.hex.text else jobId
  | none => env.hex.text

/-- The record `submit` writes first. -/
def pendingRecord (request : JobSubmitRequest) : JobRecord :=
  { jobId := submittedJobId env request
    executorKind := request.executorKind
    summary := request.summary
    description := request.description
    status := .pending
    capabilities := request.capabilities
    stopRequested := false
    createdAt := env.now
    updatedAt := env.now
    startedAt := none
    endedAt := none
    sessionId := request.sessionId
    teamId := request.teamId
    submittedBy := request.submittedBy
    projectionKind := request.projectionKind
    parentRunId := request.parentRunId
    parentTurnId := request.parentTurnId
    result := none
    error := none
    metadata := request.metadata
    sidecarRefs := request.sidecarRefs }

def checkSubmit (request : JobSubmitRequest) (hasContext : Bool) :
    Except Raised Unit := do
  raiseIf (env.registered request.executorKind = false)
    (jobExecutorResolutionError request.executorKind)
  if hasContext then .ok () else executorContext env

def submit (request : JobSubmitRequest) (hasContext : Bool) :
    JobMethod σ Progress := do
  .lift (checkSubmit env request hasContext)
  let pending ← upsertRecord S (pendingRecord env request)
  pure (.awaits (.submit pending))

/-- The result `submit` applies where its executor has raised. -/
def submitFailed (pending : JobRecord) (text : String) : JobStartResult :=
  { status := .failed
    capabilities := pending.capabilities
    metadata := [(.str "submit_failed", .bool true)]
    sidecarRefs := []
    result := none
    error := some text }

/-- A stop result with the defaults of its class. -/
def stopResult (status : JobStatus) : JobStopResult :=
  { status
    stopRequested := true
    metadata := []
    sidecarRefs := []
    result := none
    error := none }

def checkStop (jobId : String) (found : Option JobRecord) :
    Except Raised JobRecord := do
  let record ← orRaise found (jobStopNotFoundError jobId)
  raiseIf (record.status ∉ [JobStatus.pending, .running])
    (jobNotRunningError jobId record.status)
  raiseIf (isStoppable record = false) (jobNotStoppableError jobId)
  .ok record

/-- `stop`, up to its first await: the executor's, or the compat
handler's. -/
def stop (jobId : String) (scope : Option JobScopeFilter) :
    JobMethod σ Progress := do
  let found ← getSync S jobId scope
  let record ← .lift (checkStop jobId found)
  let handled ← hasCompatStopHandler jobId
  if env.registered record.executorKind then do
    .lift (executorContext env)
    pure (.awaits (.stop jobId))
  else if handled then do
    let accepted ← applyStopResult S env jobId
      (stopResult (if record.status = .running then .running else .stopped))
    pure (.awaits (.stopHandler jobId accepted))
  else do
    let _ ← upsertRecord S (withStoppable record false)
    .raise (jobNotStoppableError jobId)

def stopAfterHandler (jobId : String) (accepted : JobRecord) :
    JobMethod σ JobRecord := do
  let refreshed ← getSync S jobId none
  match refreshed with
  | some record =>
    if record.status = .running then
      applyStopResult S env jobId (stopResult .stopped)
    else pure record
  | none => pure accepted

-- ============ recovery

def recoverNext : List JobRecord → List JobRecord → JobMethod σ Progress
  | [], recovered => pure (.returns (.records recovered))
  | record :: rest, recovered =>
    if record.status = .running ∧ env.registered record.executorKind then do
      .lift (executorContext env)
      pure (.awaits (.recover record.jobId rest recovered))
    else recoverNext rest recovered

/-- `recover_inflight`, up to its first await. -/
def recoverInflight : JobMethod σ Progress := do
  let records ← .read fun s => S.list s.store
  recoverNext env records []

-- ======== the segments

def returning (m : JobMethod σ JobRecord) : JobMethod σ Progress := do
  let record ← m
  pure (.returns (.record record))

def finishing (m : JobMethod σ Unit) : JobMethod σ Progress := do
  m
  pure (.returns .none)

/-- The first segment of a call. -/
def start : Op → JobMethod σ Progress
  | .createOrUpdateCompat jobId summary description metadata =>
    returning (createOrUpdateCompat S env jobId summary description
      metadata)
  | .updateCompat jobId changes =>
    returning (updateCompat S env jobId changes)
  | .registerCompatStopHandler jobId =>
    finishing (registerCompatStopHandler S jobId)
  | .unregisterCompatStopHandler jobId =>
    finishing (unregisterCompatStopHandler jobId)
  | .submit request hasContext => submit S env request hasContext
  | .stop jobId scope => stop S env jobId scope
  | .recoverInflight => recoverInflight S env
  | .applyStartResult jobId result =>
    returning (applyStartResult S env jobId result)
  | .applyStopResult jobId result =>
    returning (applyStopResult S env jobId result)
  | .applyRecoveryResult jobId result =>
    returning (applyRecoveryResult S env jobId result)

/-- The segment after an await. An exception of an awaited call passes
through, but that `submit` first records it; a cancellation passes through
everywhere. -/
def resume : Suspended → Answer → JobMethod σ Progress
  | .submit pending, .started result =>
    returning (applyStartResult S env pending.jobId result)
  | .submit pending, .raised text => do
    let _ ← applyStartResult S env pending.jobId (submitFailed pending text)
    .raise (.thrown text)
  | .stop jobId, .stopped result =>
    returning (applyStopResult S env jobId result)
  | .stopHandler jobId accepted, .handled =>
    returning (stopAfterHandler S env jobId accepted)
  | .recover jobId rest recovered, .recovered result =>
    match result with
    | none => recoverNext env rest recovered
    | some result => do
      let record ← applyRecoveryResult S env jobId result
      recoverNext env rest (recovered ++ [record])
  | _, .raised text => .raise (.thrown text)
  | _, _ => .raise .cancelled

end Operations

-- ========= the service

structure ServiceState (σ : Type) where
  jobs : JobsState σ
  suspended : List Suspended

inductive Action where
  | call (op : Op) (env : Env)
  | resume (index : Nat) (answer : Answer) (env : Env)

section Service

variable {σ : Type} (S : JobStore σ)

def continueAt (suspended : List Suspended) (index : Nat) :
    Except Raised Progress → List Suspended
  | .ok (.awaits call) => suspended.set index call
  | _ => suspended.eraseIdx index

/-- The suspended calls after the first segment of a call. -/
def continueNew (suspended : List Suspended) :
    Except Raised Progress → List Suspended
  | .ok (.awaits call) => suspended ++ [call]
  | _ => suspended

/-- The service over a store: calls start, and suspended calls resume, in
any order. -/
def service : System (ServiceState σ) Action where
  step s
    | .call op env =>
      let out := (start S env op).run s.jobs
      some ⟨out.2, continueNew s.suspended out.1⟩
    | .resume index answer env =>
      match s.suspended[index]? with
      | none => none
      | some call =>
        if answer.answers call then
          let out := (resume S env call answer).run s.jobs
          some ⟨out.2, continueAt s.suspended index out.1⟩
        else none

end Service

end WeaveRuntime.Jobs
