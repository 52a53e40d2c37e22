/-
The background work of the long-term memory: two queues with one pending
payload a key.

`schedule_background_extraction` and its runner share the event loop, so a
runner goes from one `await` to the next without a break.
`schedule_background_consolidation` runs on the loop and its runner on a
worker thread; they share the dictionaries under one lock, so a runner
goes from one section that holds the lock to the next. A scheduler starts
a runner only where none is registered.

One execution of a consolidation takes a lock file and gives it back
(`executeBackgroundConsolidation`). Nothing else of this process touches
the file of the same memory root meanwhile, so an execution is one step.
What other processes do to the file is a step of its own.

Whatever can raise does so as the action says (`Call`, `jobRaises`). The
records of the jobs and the results of the runs are left out.
-/
import WeaveRuntime.Lib.Dict
import WeaveRuntime.Lib.Method
import WeaveRuntime.Lib.System

namespace WeaveRuntime.Memory

open Lib

-- ========== extraction

/-- `_BackgroundExtractionPayload`: the ids of its messages, and whether
it comes with a job service. -/
structure ExtractionPayload where
  messages : List String
  jobService : Bool

def mergeBackgroundPayload (existing incoming : ExtractionPayload) :
    ExtractionPayload where
  messages := (existing.messages ++ incoming.messages).foldl
    (fun merged id => if id ∈ merged then merged else merged ++ [id]) []
  jobService := incoming.jobService || existing.jobService

inductive ExtractionRunner where
  /-- created, and not run yet -/
  | scheduled
  /-- at `asyncio.sleep(0)`, with the payload it has taken -/
  | sleeping (payload : ExtractionPayload) (jobService : Bool)
  /-- an exception ended it before its `try` -/
  | dead

/-- The three dictionaries of the extraction queue. -/
structure Extraction where
  pending : Dict String ExtractionPayload
  tasks : Dict String ExtractionRunner
  taskIds : Dict String String

namespace Extraction

/-- `schedule_background_extraction`, where background synthesis is on.
The call of the job service creates the job of a new task and updates the
job of a known one. -/
def schedule (e : Extraction) (key : String) (payload : ExtractionPayload)
    (taskId : String) (jobRaises : Bool) : Extraction :=
  let merged := (e.pending.get? key).elim payload fun existing =>
    mergeBackgroundPayload existing payload
  let ids := if e.taskIds.contains key then e.taskIds
    else e.taskIds.insert key taskId
  let queued := { e with
    pending := e.pending.insert key merged, taskIds := ids }
  if payload.jobService && jobRaises then queued
  else if e.tasks.contains key then queued
  else { queued with tasks := e.tasks.insert key .scheduled }

/-- The `finally` of the runner. -/
def unregister (e : Extraction) (key : String) : Extraction :=
  { e with tasks := e.tasks.erase key, taskIds := e.taskIds.erase key }

/-- The head of the runner's loop: take the pending payload and go to
sleep, or complete the job. An exception of the completion is an exception
inside the `try`. -/
def takePending (e : Extraction) (key : String) (jobService : Bool) :
    Extraction :=
  match e.pending.get? key with
  | some payload => { e with
      pending := e.pending.erase key
      tasks := e.tasks.insert key
        (.sleeping payload (payload.jobService || jobService)) }
  | none => e.unregister key

/-- The runner from its start to its first `await`. -/
def begin (e : Extraction) (key : String) (jobRaises : Bool) : Extraction :=
  match e.taskIds.get? key, e.pending.get? key with
  | some _, some payload =>
    if payload.jobService && jobRaises then
      { e with tasks := e.tasks.insert key .dead }
    else e.takePending key payload.jobService
  | _, _ => { e with tasks := e.tasks.insert key .dead }

/-- The runner from its `await` to the next, with what the extraction and
the job service do. -/
def resume (e : Extraction) (key : String) (jobService raises jobRaises : Bool) :
    Extraction :=
  if raises then e.unregister key
  else if jobService && e.pending.contains key && jobRaises then
    e.unregister key
  else e.takePending key jobService

end Extraction

-- ==== the lock of a run

/-- The consolidation lock file: the run that created it, none for a run
of another process, and whether its payload was written. -/
structure LockFile where
  owner : Option String
  written : Bool
  deriving DecidableEq

/-- The calls of `_execute_background_consolidation` that can raise. -/
inductive Call where
  | resolveContext | resolveMemoryConfig | refreshManifest
  | createLock | refreshBlocked
  | writeLock | refreshActive | pendingSessions | buildProposals
  | writeStaging | writeCheckpoint | writeLog | snapshot
  | mergeProposals
  | restoreSnapshot | writeFailedCheckpoint | writeFailedLog
  | releaseFailed | refreshFailed
  | markSessions | writeSuccessCheckpoint | writeSuccessLog
  | releaseLock | refreshSuccess
  deriving DecidableEq

/-- What an execution meets: the calls that raise, the id of its run, what
`_should_run_consolidation` says of the backlog and the clock, and whether
a lock file without a payload is older than the limit. -/
structure Execution where
  raises : Call → Bool
  runId : String
  due : Bool
  stale : Bool

structure Raised where
  call : Call

namespace Execution

variable (x : Execution)

def call (c : Call) : Method (Option LockFile) Raised Unit :=
  if x.raises c then Method.raise ⟨c⟩ else pure ()

def readConsolidationLock (file : Option LockFile) :
    Option (Option String) :=
  (file.filter LockFile.written).map LockFile.owner

def shouldRunConsolidation (file : Option LockFile) : Bool :=
  if (readConsolidationLock file).isSome then false else x.due

/-- Whether `_acquire_consolidation_lock` gets to create the file. -/
def lockFree (file : Option LockFile) : Bool :=
  match file with
  | none => true
  | some file => !file.written && x.stale

/-- `_acquire_consolidation_lock`: the file is created first, and its
payload written then. -/
def acquireConsolidationLock : Method (Option LockFile) Raised Bool := do
  x.call .createLock
  let file ← Method.read id
  if x.lockFree file then
    Method.write fun _ => some ⟨some x.runId, false⟩
    x.call .writeLock
    Method.write fun _ => some ⟨some x.runId, true⟩
    return true
  else return false

/-- `_release_consolidation_lock`; what raises does so before the file is
removed. -/
def releaseConsolidationLock (c : Call) :
    Method (Option LockFile) Raised Unit := do
  x.call c
  let file ← Method.read id
  match readConsolidationLock file with
  | some owner =>
    if owner ≠ some x.runId then return ()
    else Method.write fun _ => none
  | none => Method.write fun _ => none

/-- The handler of a merge that raised. -/
def failConsolidation (e : Raised) : Method (Option LockFile) Raised Unit := do
  x.call .restoreSnapshot
  x.call .writeFailedCheckpoint
  x.call .writeFailedLog
  x.releaseConsolidationLock .releaseFailed
  x.call .refreshFailed
  Method.raise e

/-- `_execute_background_consolidation` after it has got the lock. -/
def consolidateLocked : Method (Option LockFile) Raised Unit := do
  x.call .refreshActive
  x.call .pendingSessions
  x.call .buildProposals
  x.call .writeStaging
  x.call .writeCheckpoint
  x.call .writeLog
  x.call .snapshot
  Method.tryExcept (x.call .mergeProposals) x.failConsolidation
  x.call .markSessions
  x.call .writeSuccessCheckpoint
  x.call .writeSuccessLog
  x.releaseConsolidationLock .releaseLock
  x.call .refreshSuccess

def executeBackgroundConsolidation :
    Method (Option LockFile) Raised Unit := do
  x.call .resolveContext
  x.call .resolveMemoryConfig
  x.call .refreshManifest
  let file ← Method.read id
  if x.shouldRunConsolidation file then
    let acquired ← x.acquireConsolidationLock
    if acquired then x.consolidateLocked
    else x.call .refreshBlocked
  else return ()

end Execution

-- ======= consolidation

/-- Where a registered consolidation runner is: between which two sections
that hold the lock. -/
inductive Consolidator where
  /-- submitted to the executor -/
  | submitted
  /-- about to take the pending payload -/
  | looking (jobService : Bool)
  /-- executing the payload it has taken -/
  | executing (jobService : Bool)
  /-- about to see whether another payload is pending -/
  | checking (jobService : Bool)
  /-- out of its loop, at the job's completion -/
  | closing (jobService : Bool)
  /-- about to unregister -/
  | unregistering
  /-- an exception ended it, and its future is done -/
  | done

/-- `existing.done()`. -/
def Consolidator.isDone : Consolidator → Bool
  | .done => true
  | _ => false

/-- The dictionaries of the consolidation queue, and the lock file of each
memory root. A payload is whether it comes with a job service. -/
structure Consolidation where
  pending : Dict String Bool
  tasks : Dict String Consolidator
  taskIds : Dict String String
  lockFiles : Dict String LockFile

namespace Consolidation

/-- The runner registered under the key, unless its future is done. -/
def existing (c : Consolidation) (key : String) : Option Consolidator :=
  (c.tasks.get? key).filter fun r => !r.isDone

/-- The last section of the runner. -/
def unregister (c : Consolidation) (key : String) : Consolidation :=
  { c with tasks := c.tasks.erase key, taskIds := c.taskIds.erase key }

/-- A scheduler forgets a runner whose future is done. -/
def clearDone (c : Consolidation) (key : String) : Consolidation :=
  if (c.tasks.get? key).any Consolidator.isDone then c.unregister key else c

/-- `schedule_background_consolidation` under the lock, where background
consolidation is on. `jobRaises` and `submitRaises` are what the job
service and the executor do. -/
def schedule (c : Consolidation) (key : String) (jobService : Bool)
    (taskId : String) (jobRaises submitRaises : Bool) : Consolidation :=
  let cleared := c.clearDone key
  let ids := if cleared.taskIds.contains key then cleared.taskIds
    else cleared.taskIds.insert key taskId
  let queued := { cleared with
    pending := cleared.pending.insert key jobService, taskIds := ids }
  if jobService && jobRaises then queued
  else if (c.existing key).isSome then queued
  else if submitRaises then queued
  else { queued with tasks := queued.tasks.insert key .submitted }

def place (c : Consolidation) (key : String) (stage : Consolidator) :
    Consolidation :=
  { c with tasks := c.tasks.insert key stage }

/-- The first section of the runner, and the job's first update. -/
def begin (c : Consolidation) (key : String) (jobRaises : Bool) :
    Consolidation :=
  let jobService := (c.pending.get? key).getD false
  if jobService && jobRaises then c.place key .done
  else c.place key (.looking jobService)

/-- The section that takes the pending payload. -/
def look (c : Consolidation) (key : String) (jobService : Bool) :
    Consolidation :=
  match c.pending.get? key with
  | none => c.place key (.closing jobService)
  | some payload =>
    { c with pending := c.pending.erase key }.place key
      (.executing (payload || jobService))

/-- The lock file of a memory root after an execution. -/
def setLockFile (c : Consolidation) (key : String)
    (file : Option LockFile) : Consolidation :=
  match file with
  | none => { c with lockFiles := c.lockFiles.erase key }
  | some file => { c with lockFiles := c.lockFiles.insert key file }

/-- The execution, and the job's update where it raised. -/
def execute (c : Consolidation) (key : String) (jobService : Bool)
    (x : Execution) (jobRaises : Bool) : Consolidation :=
  match x.executeBackgroundConsolidation.run (c.lockFiles.get? key) with
  | (.ok _, file) => (c.setLockFile key file).place key (.checking jobService)
  | (.error _, file) =>
    if jobService && jobRaises then
      (c.setLockFile key file).place key .done
    else (c.setLockFile key file).place key (.closing jobService)

/-- The section after an execution, and the update of a job with more to
do. -/
def check (c : Consolidation) (key : String) (jobService jobRaises : Bool) :
    Consolidation :=
  if jobService && c.pending.contains key && jobRaises then
    c.place key .done
  else c.place key (.looking jobService)

/-- The job's completion. -/
def close (c : Consolidation) (key : String) (jobService jobRaises : Bool) :
    Consolidation :=
  if jobService && jobRaises then c.place key .done
  else c.place key .unregistering

end Consolidation

-- ========== the system

structure Background where
  extraction : Extraction
  consolidation : Consolidation

/-- Nothing scheduled yet; lock files of other processes may be there. -/
def Background.empty (lockFiles : Dict String LockFile) : Background where
  extraction := ⟨.empty, .empty, .empty⟩
  consolidation := ⟨.empty, .empty, .empty, lockFiles⟩

inductive BackgroundAction where
  | scheduleExtraction (key : String) (payload : ExtractionPayload)
      (taskId : String) (jobRaises : Bool)
  /-- the registered extraction runner up to its next `await` -/
  | runExtraction (key : String) (raises jobRaises : Bool)
  | scheduleConsolidation (key : String) (jobService : Bool)
      (taskId : String) (jobRaises submitRaises : Bool)
  /-- the registered consolidation runner up to its next section -/
  | runConsolidation (key : String) (x : Execution) (jobRaises : Bool)
  /-- another process takes or gives back the lock file -/
  | otherProcess (key : String) (written : Option Bool)

def runExtraction (e : Extraction) (key : String) (raises jobRaises : Bool) :
    Option Extraction :=
  match e.tasks.get? key with
  | some .scheduled => some (e.begin key jobRaises)
  | some (.sleeping _ jobService) =>
    some (e.resume key jobService raises jobRaises)
  | some .dead => none
  | none => none

def runConsolidation (c : Consolidation) (key : String) (x : Execution)
    (jobRaises : Bool) : Option Consolidation :=
  match c.tasks.get? key with
  | some .submitted => some (c.begin key jobRaises)
  | some (.looking jobService) => some (c.look key jobService)
  | some (.executing jobService) =>
    some (c.execute key jobService x jobRaises)
  | some (.checking jobService) => some (c.check key jobService jobRaises)
  | some (.closing jobService) => some (c.close key jobService jobRaises)
  | some .unregistering => some (c.unregister key)
  | some .done => none
  | none => none

/-- The lock file is not one that this process created. -/
def LockFile.foreign (file : Option LockFile) : Bool :=
  match file with
  | none => true
  | some file => file.owner.isNone

def otherProcess (c : Consolidation) (key : String) (written : Option Bool) :
    Option Consolidation :=
  if LockFile.foreign (c.lockFiles.get? key) then
    some (c.setLockFile key (written.map (LockFile.mk none)))
  else none

/-- The queues and their runners. -/
def backgroundSystem : System Background BackgroundAction where
  step s a :=
    match a with
    | .scheduleExtraction key payload taskId jobRaises =>
      some { s with
        extraction := s.extraction.schedule key payload taskId jobRaises }
    | .runExtraction key raises jobRaises =>
      (runExtraction s.extraction key raises jobRaises).map fun e =>
        { s with extraction := e }
    | .scheduleConsolidation key jobService taskId jobRaises submitRaises =>
      some { s with
        consolidation := s.consolidation.schedule key jobService taskId
          jobRaises submitRaises }
    | .runConsolidation key x jobRaises =>
      (runConsolidation s.consolidation key x jobRaises).map fun c =>
        { s with consolidation := c }
    | .otherProcess key written =>
      (otherProcess s.consolidation key written).map fun c =>
        { s with consolidation := c }

end WeaveRuntime.Memory
