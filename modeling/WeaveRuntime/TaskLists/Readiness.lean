/-
Which tasks can be worked on: the readiness view and the claim check.

The two compute the unresolved blockers of a task differently. The view
(`deriveOrchestrationSnapshot`) reads the task's own `blocked_by`, out of
which archived ids are projected when archived tasks are hidden, and
skips blockers that are archived. The claim check (`unresolvedBlockers`)
rebuilds the graph from the tuples of every task and looks at the status
alone.

A claim writes the owner and, unless told not to, the status
`in_progress`; a release takes both back.
-/
import WeaveRuntime.TaskLists.Dependencies

namespace WeaveRuntime.TaskLists

open Lib
open Lib.Graph
open Python

-- ============ the view

structure TaskOrchestrationEntry where
  task : TaskListEntry
  readinessState : TaskReadinessState
  unresolvedBlockers : List String

structure TaskOrchestrationSnapshot where
  listId : String
  tasks : List TaskOrchestrationEntry
  availableTaskIds : List String
  blockedTaskIds : List String
  claimedTaskIds : List String
  inProgressTaskIds : List String
  completedTaskIds : List String
  unresolvedBlockerIds : List String
  updatedAt : Datetime

def taskMap (tasks : List TaskListEntry) (taskId : String) :
    Option TaskListEntry :=
  tasks.find? fun t => t.taskId = taskId

def archivedTaskIds (tasks : List TaskListEntry) : List String :=
  taskIds (tasks.filter TaskListEntry.isArchived)

def visibleTasks (tasks : List TaskListEntry) (includeArchived : Bool) :
    List TaskListEntry :=
  if includeArchived then tasks else tasks.filter fun t => !t.isArchived

def projectTaskEntry (task : TaskListEntry) (archivedTaskIds : List String)
    (includeArchived : Bool) : TaskListEntry :=
  if includeArchived || archivedTaskIds.isEmpty then task
  else
    let projectedBlocks := task.blocks.filter (· ∉ archivedTaskIds)
    let projectedBlockedBy := task.blockedBy.filter (· ∉ archivedTaskIds)
    if projectedBlocks = task.blocks ∧ projectedBlockedBy = task.blockedBy
    then task
    else
      { task with blocks := projectedBlocks, blockedBy := projectedBlockedBy }

def readinessState (task : TaskListEntry) (unresolvedBlockers : List String) :
    TaskReadinessState :=
  if task.status = some .completed then .completed
  else if task.status = some .inProgress then .inProgress
  else if task.owner.isSome then .claimed
  else if unresolvedBlockers ≠ [] then .blocked
  else .available

/-- The test of the view: the blocker is in the list, not archived and not
completed. -/
def openBlocker (tasks : List TaskListEntry) (blockerId : String) : Bool :=
  match taskMap tasks blockerId with
  | some blocker => !blocker.isArchived && blocker.status ≠ some .completed
  | none => false

/-- One pass of the loop of `_derive_orchestration_snapshot`. -/
def orchestrationEntry (tasks : List TaskListEntry) (includeArchived : Bool)
    (task : TaskListEntry) : TaskOrchestrationEntry :=
  let projected :=
    projectTaskEntry task (archivedTaskIds tasks) includeArchived
  let blockers :=
    (sortedIds (taskIds tasks) projected.blockedBy).filter (openBlocker tasks)
  { task := projected
    readinessState := readinessState projected blockers
    unresolvedBlockers := blockers }

/-- The sort key of the view's entries. -/
def TaskOrchestrationEntry.NotAfter (a b : TaskOrchestrationEntry) : Prop :=
  a.task.NotAfter b.task

instance : DecidableRel TaskOrchestrationEntry.NotAfter := fun a b =>
  inferInstanceAs (Decidable (a.task.NotAfter b.task))

def deriveOrchestrationSnapshot (snapshot : TaskListSnapshot)
    (includeArchived : Bool) : TaskOrchestrationSnapshot :=
  let ids := taskIds snapshot.tasks
  let entries := (visibleTasks snapshot.tasks includeArchived).map
    (orchestrationEntry snapshot.tasks includeArchived)
  -- archived tasks are shown and not counted
  let counted := entries.filter fun e => !e.task.isArchived
  let inState := fun state =>
    (counted.filter fun e => e.readinessState = state).map (·.task.taskId)
  { listId := snapshot.listId
    tasks := entries.insertionSort TaskOrchestrationEntry.NotAfter
    availableTaskIds := inState .available
    blockedTaskIds := inState .blocked
    claimedTaskIds := inState .claimed
    inProgressTaskIds := inState .inProgress
    completedTaskIds := inState .completed
    unresolvedBlockerIds :=
      sortedIds ids (counted.flatMap (·.unresolvedBlockers)).dedup
    updatedAt := snapshot.updatedAt }

-- ========== the claims

def unresolvedBlockers (tasks : List TaskListEntry) (taskId : String) :
    List String :=
  (sortedIds (taskIds tasks)
    (predecessors (normalizedDependencyGraph tasks) taskId)).filter
    fun blockerId =>
      match taskMap tasks blockerId with
      | some blocker => blocker.status ≠ some .completed
      | none => false

def validateSingleInProgress (tasks : List TaskListEntry)
    (listId taskId : String) : Except Raised Unit :=
  match tasks.find? fun t =>
      t.taskId ≠ taskId ∧ t.status = some .inProgress with
  | some current =>
    .error (taskListMultipleInProgressError listId taskId current.taskId)
  | none => .ok ()

def assertOwnerAvailable (tasks : List TaskListEntry)
    (listId taskId owner : String) : Except Raised Unit :=
  match tasks.find? fun t => t.taskId ≠ taskId ∧ t.owner = some owner
      ∧ t.status ≠ some .completed with
  | some current =>
    .error (taskListOwnerBusyError listId taskId owner current.taskId)
  | none => .ok ()

/-- The keyword flags of `claim` and `assign_next`. -/
structure ClaimFlags where
  setInProgress : Bool := true
  enforceOwnerBusy : Bool := false
  strictSingleInProgress : Bool := false
  deriving DecidableEq

def ClaimFlags.desiredStatus (flags : ClaimFlags)
    (status : Option TaskListStatus) : Option TaskListStatus :=
  if flags.setInProgress then some .inProgress else status

def checkSingleInProgress (strict : Bool) (tasks : List TaskListEntry)
    (listId taskId : String) (desired : Option TaskListStatus) :
    Except Raised Unit :=
  if strict ∧ desired = some .inProgress then
    validateSingleInProgress tasks listId taskId
  else .ok ()

def ClaimFlags.checkOwner (flags : ClaimFlags) (tasks : List TaskListEntry)
    (listId taskId owner : String) : Except Raised Unit :=
  if flags.enforceOwnerBusy then
    assertOwnerAvailable tasks listId taskId owner
  else .ok ()

/-- What an operation on one task leaves: the tasks, the task, and whether
it changed. -/
structure TaskChange where
  tasks : List TaskListEntry
  task : TaskListEntry
  changed : Bool

def claimTask (tasks : List TaskListEntry) (listId taskId : String)
    (owner : PyVal) (flags : ClaimFlags) (now : Datetime) :
    Except Raised TaskChange := do
  let normalizedOwner ← orRaise (coerceOptionalString owner)
    (taskListInvalidRequestError "task_claim requires a non-empty owner"
      [("task_list_id", .str listId), ("task_id", .str taskId)])
  let index ← findTaskIndex tasks listId taskId
  let existing := tasks.get index
  assertTaskMutable existing listId
  raiseIf (existing.status = some .completed)
    (taskListInvalidRequestError "task_claim does not support completed tasks"
      [("task_list_id", .str listId), ("task_id", .str taskId)])
  let desiredStatus := flags.desiredStatus existing.status
  let blockers := unresolvedBlockers tasks taskId
  if existing.owner = some normalizedOwner then
    if desiredStatus = existing.status then .ok ⟨tasks, existing, false⟩
    else do
      raiseIf (blockers ≠ []) (taskListBlockedError listId taskId blockers)
      checkSingleInProgress flags.strictSingleInProgress tasks listId taskId
        desiredStatus
      let updated := { existing with status := desiredStatus, updatedAt := now }
      .ok ⟨tasks.set index updated, updated, true⟩
  else do
    raiseIf (existing.owner ≠ none)
      (taskListAlreadyClaimedError listId taskId existing.owner)
    raiseIf (blockers ≠ []) (taskListBlockedError listId taskId blockers)
    flags.checkOwner tasks listId taskId normalizedOwner
    checkSingleInProgress flags.strictSingleInProgress tasks listId taskId
      desiredStatus
    let updated := { existing with
      owner := some normalizedOwner
      status := desiredStatus
      updatedAt := now }
    .ok ⟨tasks.set index updated, updated, true⟩

def releasedStatus (status : Option TaskListStatus) : Option TaskListStatus :=
  if status = some .completed then status else some .pending

def releaseTask (tasks : List TaskListEntry) (listId taskId : String)
    (now : Datetime) : Except Raised TaskChange := do
  let index ← findTaskIndex tasks listId taskId
  let existing := tasks.get index
  assertTaskMutable existing listId
  let desiredStatus := releasedStatus existing.status
  if existing.owner = none ∧ existing.status = desiredStatus then
    .ok ⟨tasks, existing, false⟩
  else
    let updated := { existing with
      owner := none
      status := desiredStatus
      updatedAt := now }
    .ok ⟨tasks.set index updated, updated, true⟩

end WeaveRuntime.TaskLists
