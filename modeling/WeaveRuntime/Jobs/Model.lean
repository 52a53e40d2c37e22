/-
Job records, and the transitions a job's status may make.

`validateJobTransition` is the one gate: a terminal status goes nowhere
(`validateJobTransition_terminal`), and what it admits from the others
depends on the phase that asks. `applyResultPatch` is what the results of
an executor do to a record.

A payload dictionary is an association list over `PyKey` in insertion
order (`Fields`), with `updateFields` for `dict.update`.
-/
import WeaveRuntime.Lib.Raise
import WeaveRuntime.Python.Datetime
import WeaveRuntime.Python.Json

namespace WeaveRuntime.Jobs

open Lib
open Python

-- ======== dictionaries

/-- A dictionary of Python values, in insertion order. -/
abbrev Fields := List (PyKey × PyVal)

def setField : Fields → PyKey → PyVal → Fields
  | [], key, value => [(key, value)]
  | (k, v) :: rest, key, value =>
    if k = key then (k, value) :: rest else (k, v) :: setField rest key value

def updateFields (fields patch : Fields) : Fields :=
  patch.foldl (fun acc e => setField acc e.1 e.2) fields

def getField (fields : Fields) (key : String) : PyVal :=
  (lookupKey fields key).getD .none

def coerceOptionalMapping : PyVal → Option Fields
  | .dict fields => some ((coerceMapping (jsonSafe (.dict fields))).map
      fun e => (.str e.1, e.2))
  | _ => none

-- ============ statuses

inductive JobStatus where
  | pending | running | completed | failed | stopped
  deriving DecidableEq, Repr

def JobStatus.value : JobStatus → String
  | .pending => "pending"
  | .running => "running"
  | .completed => "completed"
  | .failed => "failed"
  | .stopped => "stopped"

def JobStatus.ofValue (text : String) : Option JobStatus :=
  [JobStatus.pending, .running, .completed, .failed, .stopped].find?
    fun s => s.value = text

def JobStatus.terminal : JobStatus → Bool
  | .completed | .failed | .stopped => true
  | .pending | .running => false

@[simp] theorem JobStatus.ofValue_value (s : JobStatus) :
    JobStatus.ofValue s.value = some s := by
  cases s <;> rfl

-- ============= records

structure JobControlCapabilities where
  stoppable : Bool
  deriving DecidableEq

structure JobSidecarRef where
  kind : String
  ref : String
  metadata : Fields

structure JobRecord where
  jobId : String
  executorKind : String
  summary : String
  description : Option String
  status : JobStatus
  capabilities : Option JobControlCapabilities
  stopRequested : Bool
  createdAt : Datetime
  updatedAt : Datetime
  startedAt : Option Datetime
  endedAt : Option Datetime
  sessionId : Option String
  teamId : Option String
  submittedBy : Option String
  projectionKind : Option String
  parentRunId : Option String
  parentTurnId : Option String
  result : Option Fields
  error : Option String
  metadata : Fields
  sidecarRefs : List JobSidecarRef

def JobRecord.terminal (record : JobRecord) : Bool := record.status.terminal

/-- The fields of a record that its transitions decide. -/
structure Lifecycle where
  status : JobStatus
  createdAt : Datetime
  startedAt : Option Datetime
  endedAt : Option Datetime

def JobRecord.lifecycle (r : JobRecord) : Lifecycle :=
  ⟨r.status, r.createdAt, r.startedAt, r.endedAt⟩

structure JobSubmitRequest where
  executorKind : String
  summary : String
  description : Option String
  sessionId : Option String
  teamId : Option String
  submittedBy : Option String
  projectionKind : Option String
  parentRunId : Option String
  parentTurnId : Option String
  requestedJobId : Option String
  metadata : Fields
  capabilities : Option JobControlCapabilities
  sidecarRefs : List JobSidecarRef

structure JobStartResult where
  status : JobStatus
  capabilities : Option JobControlCapabilities
  metadata : Fields
  sidecarRefs : List JobSidecarRef
  result : Option Fields
  error : Option String

structure JobStopResult where
  status : JobStatus
  stopRequested : Bool
  metadata : Fields
  sidecarRefs : List JobSidecarRef
  result : Option Fields
  error : Option String

structure JobRecoveryResult where
  status : JobStatus
  capabilities : Option JobControlCapabilities
  metadata : Fields
  sidecarRefs : List JobSidecarRef
  result : Option Fields
  error : Option String

structure JobScopeFilter where
  sessionId : Option String
  teamId : Option String
  submittedBy : Option String
  projectionKind : Option String

def unsetOrEq (value actual : Option String) : Bool :=
  value.isNone || value == actual

def JobScopeFilter.accepts (f : JobScopeFilter) (record : JobRecord) : Bool :=
  let visible :=
    if f.sessionId.isSome || f.teamId.isSome then
      (f.sessionId.isSome && f.sessionId == record.sessionId)
        || (f.teamId.isSome && f.teamId == record.teamId)
    else true
  visible && unsetOrEq f.submittedBy record.submittedBy
    && unsetOrEq f.projectionKind record.projectionKind

def isStoppable (record : JobRecord) : Bool :=
  (record.capabilities.map (·.stoppable)).getD false

-- ============== errors

/-- What a call of the service raises: an error of its own, one of the
interpreter's, what an executor or a handler raised, or the cancellation
of the task that awaits it. -/
inductive Raised where
  | jobControlError (code message : String) (details : List (String × PyVal))
  | keyError (key : String)
  | runtimeError (message : String)
  | thrown (text : String)
  | cancelled

def jobExecutorResolutionError (executorKind : String) : Raised :=
  .jobControlError "executor_not_found"
    ("Job executor '" ++ executorKind ++ "' is not registered")
    [("executor_kind", .str executorKind)]

def jobLifecycleError (jobId : String) (currentStatus nextStatus : JobStatus)
    (phase : String) : Raised :=
  .jobControlError "invalid_transition"
    ("Job '" ++ jobId ++ "' cannot transition from '" ++ currentStatus.value
      ++ "' to '" ++ nextStatus.value ++ "' during " ++ phase)
    [("job_id", .str jobId), ("current_status", .str currentStatus.value),
      ("next_status", .str nextStatus.value), ("phase", .str phase)]

def jobStopNotFoundError (jobId : String) : Raised :=
  .jobControlError "not_found" ("Job '" ++ jobId ++ "' was not found")
    [("job_id", .str jobId)]

def jobNotRunningError (jobId : String) (status : JobStatus) : Raised :=
  .jobControlError "not_running"
    ("Job '" ++ jobId ++ "' is not currently running")
    [("job_id", .str jobId), ("status", .str status.value)]

def jobNotStoppableError (jobId : String) : Raised :=
  .jobControlError "not_stoppable" ("Job '" ++ jobId ++ "' is not stoppable")
    [("job_id", .str jobId)]

-- ========= transitions

inductive Phase where
  | start | stop | recovery | compat
  deriving DecidableEq

def Phase.name : Phase → String
  | .start => "start"
  | .stop => "stop"
  | .recovery => "recovery"
  | .compat => "compat"

/-- The `allowed` table of `validate_job_transition`. -/
def allowed : Phase → JobStatus → List JobStatus
  | .start, .pending => [.running, .completed, .failed]
  | .stop, .pending => [.stopped]
  | .stop, .running => [.running, .stopped]
  | .recovery, .running => [.running, .completed, .failed, .stopped]
  | .compat, .pending => [.pending, .running, .completed, .failed, .stopped]
  | .compat, .running => [.running, .completed, .failed, .stopped]
  | _, _ => []

def validateJobTransition (current proposed : JobStatus) (phase : Phase)
    (jobId : String) : Except Raised JobStatus :=
  if current = proposed then .ok proposed
  else if current.terminal then
    .error (jobLifecycleError jobId current proposed phase.name)
  else if proposed ∈ allowed phase current then .ok proposed
  else .error (jobLifecycleError jobId current proposed phase.name)

theorem validateJobTransition_eq_ok {current proposed next : JobStatus}
    {phase : Phase} {jobId : String}
    (h : validateJobTransition current proposed phase jobId = .ok next) :
    next = proposed := by
  unfold validateJobTransition at h
  split at h
  · exact (Except.ok.inj h).symm
  · split at h
    · cases h
    · split at h
      · exact (Except.ok.inj h).symm
      · cases h

theorem validateJobTransition_terminal {current proposed next : JobStatus}
    {phase : Phase} {jobId : String}
    (h : validateJobTransition current proposed phase jobId = .ok next)
    (hterminal : current.terminal = true) : next = current := by
  have hnext := validateJobTransition_eq_ok h
  unfold validateJobTransition at h
  split at h
  · next heq => exact hnext.trans heq.symm
  · -- the split has used that the status is terminal
    cases h

/-- What is refused is refused under the job's id, with both statuses and
the phase in the error. -/
theorem validateJobTransition_eq_error {current proposed : JobStatus}
    {phase : Phase} {jobId : String} {e : Raised}
    (h : validateJobTransition current proposed phase jobId = .error e) :
    e = jobLifecycleError jobId current proposed phase.name := by
  unfold validateJobTransition at h
  split at h
  · cases h
  · split at h
    · exact (Except.error.inj h).symm
    · split at h
      · cases h
      · exact (Except.error.inj h).symm

-- ============= patches

def startedAtAfter (record : JobRecord) (status : JobStatus)
    (now : Datetime) : Option Datetime :=
  if status ∈ [JobStatus.running, .completed, .failed, .stopped] then
    some (record.startedAt.getD now)
  else record.startedAt

def endedAtAfter (record : JobRecord) (status : JobStatus) (now : Datetime) :
    Option Datetime :=
  if status.terminal then some now else record.endedAt

/-- `_apply_result_patch`; a `capabilities` of `none` is the argument left
out. -/
def applyResultPatch (record : JobRecord) (now : Datetime)
    (status : JobStatus)
    (capabilities : Option (Option JobControlCapabilities))
    (metadataPatch : Fields) (sidecarRefs : List JobSidecarRef)
    (resultPayload : Option Fields) (error : Option String)
    (stopRequested : Bool) : JobRecord :=
  { record with
    status
    capabilities := capabilities.getD record.capabilities
    stopRequested
    updatedAt := now
    startedAt := startedAtAfter record status now
    endedAt := endedAtAfter record status now
    result := resultPayload.bind fun r => coerceOptionalMapping (.dict r)
    error := coerceOptional error
    metadata := updateFields record.metadata metadataPatch
    sidecarRefs }

def compatExecutorKind (metadata : Fields) (current : Option JobRecord) :
    String :=
  match coerceOptionalString (getField metadata "executor_kind") with
  | some explicit => explicit
  | none =>
    let kind := coerceOptionalString (getField metadata "kind")
    if kind = some "background_agent" then "agent"
    else if kind = some "background_memory_extraction"
        ∨ kind = some "background_memory_consolidation" then "memory"
    else if kind = some "teammate_projection" then "teammate_projection"
    else (current.map (·.executorKind)).getD "legacy"

/-- An optional text as a value. -/
def optText : Option String → PyVal
  | some s => .str s
  | none => .none

def sidecarRefFromPayload (payload : Fields) : JobSidecarRef :=
  { kind := pyStr (pyOr (getField payload "kind") (.str ""))
    ref := pyStr (pyOr (getField payload "ref") (.str ""))
    metadata :=
      (coerceOptionalMapping (getField payload "metadata")).getD [] }

/-- The mappings among the items of a list. -/
def mappingItems : PyVal → List Fields
  | .list items => items.filterMap fun item =>
    match item with
    | .dict fields => some fields
    | _ => none
  | _ => []

def compatSidecarRefs (current : Option JobRecord) (metadata : Fields) :
    List JobSidecarRef :=
  let refs :=
    (mappingItems (getField metadata "sidecars")).map sidecarRefFromPayload
  let text := fun key => coerceOptionalString (getField metadata key)
  if !refs.isEmpty then refs
  else if text "kind" = some "background_agent" ∧ (text "run_id").isSome then
    [⟨"agent_run", (text "run_id").getD "",
      [(.str "agent", optText (text "agent"))]⟩]
  else if text "kind" = some "teammate_projection" ∧ (text "team_id").isSome
      ∧ (text "teammate_id").isSome ∧ (text "message_id").isSome then
    [⟨"teammate_projection",
      (text "team_id").getD "" ++ "/" ++ (text "teammate_id").getD "" ++ "/"
        ++ (text "message_id").getD "",
      [(.str "claim_id", optText (text "claim_id"))]⟩]
  else (current.map (·.sidecarRefs)).getD []

end WeaveRuntime.Jobs
