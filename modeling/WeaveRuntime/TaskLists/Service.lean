/-
The task-list service.

An operation runs under the lock of its list: it loads the snapshot,
computes a result and, where something changed, a new snapshot, and saves
that. So an operation is one step: `apply` is the part between load and
save, `call` the whole of it over a store, and a call that raises leaves
the store as it was. Watchers are notified after the lock is released,
with their errors swallowed, and are left out.

What an operation takes from outside is its `Env`: the time, and the id
`uuid4()` generates. The clock is not assumed to be monotone. The one
thing asked of the environment (`Fresh`) is that a generated id is not
already taken in the list.

# The stores

`Store` is the protocol. `inMemoryTaskListStore` keeps snapshots by list
id. The file store is in the persistence module.
-/
import WeaveRuntime.Lib.Dict
import WeaveRuntime.Lib.System
import WeaveRuntime.TaskLists.Readiness

namespace WeaveRuntime.TaskLists

open Lib
open Python

-- ============= patches

abbrev Patch := List (PyKey × PyVal)

/-- The fields `update` can change. -/
def allowedFields : List String :=
  ["status", "subject", "description", "active_form", "metadata"]

def taskUpdateUnsupportedMessage (unsupported : List String) : String :=
  let guidance :=
    (if "owner" ∈ unsupported then
      ["Use task_claim or task_release for ownership changes."] else [])
    ++ (if "blocks" ∈ unsupported ∨ "blocked_by" ∈ unsupported then
      ["Use task_block or task_unblock for dependency changes."] else [])
  "task_update does not support fields: " ++ ", ".intercalate unsupported
    ++ (if guidance = [] then "" else ". " ++ " ".intercalate guidance)

def coerceTaskStatus : PyVal → Except Raised (Option TaskListStatus)
  | .none => .ok none
  | value =>
    match TaskListStatus.ofValue (pyStr value) with
    | some status => .ok (some status)
    | none => .error (.valueError
        (Python.reprStr (pyStr value) ++ " is not a valid TaskListStatus"))

/-- The keys of a patch that `update` does not know, sorted. -/
def unsupportedFields (patch : Patch) : List String :=
  ((patch.filter fun e => ¬ ∃ f ∈ allowedFields, e.1 = .str f).map
    (·.1.text)).insertionSort (· ≤ ·)

def patchedSubject (task : TaskListEntry) (patch : Patch) :
    Except Raised String :=
  match lookupKey patch "subject" with
  | none => .ok task.subject
  | some value => orRaise (coerceOptionalString value)
      (taskListInvalidRequestError
        "task_update requires subject to be a non-empty string when provided"
        [("task_id", .str task.taskId)])

def patchedText (patch : Patch) (field : String) (current : Option String) :
    Option String :=
  match lookupKey patch field with
  | none => current
  | some value => coerceOptionalString value

def patchedStatus (task : TaskListEntry) (patch : Patch) :
    Except Raised (Option TaskListStatus) :=
  match lookupKey patch "status" with
  | none => .ok task.status
  | some value => coerceTaskStatus value

def patchedMetadata (task : TaskListEntry) (patch : Patch) : Metadata :=
  match lookupKey patch "metadata" with
  | none => task.metadata
  | some value => task.metadata.update (coerceMapping value)

def applyPatch (task : TaskListEntry) (patch : Patch) (now : Datetime) :
    Except Raised TaskListEntry := do
  raiseIf (unsupportedFields patch ≠ [])
    (taskListInvalidRequestError
      (taskUpdateUnsupportedMessage (unsupportedFields patch))
      [("unsupported_fields", idList (unsupportedFields patch)),
        ("task_id", .str task.taskId)])
  raiseIf (∀ f ∈ allowedFields, lookupKey patch f = none)
    (taskListInvalidRequestError
      "task_update requires at least one supported mutable field"
      [("task_id", .str task.taskId)])
  let subject ← patchedSubject task patch
  let status ← patchedStatus task patch
  .ok { task with
    subject
    description := patchedText patch "description" task.description
    activeForm := patchedText patch "active_form" task.activeForm
    status
    metadata := patchedMetadata task patch
    updatedAt := now }

-- ========== operations

/-- What an operation takes from outside: the time, a generated id, and
the ids a store generates for the tasks it reads without one. -/
structure Env where
  now : Datetime
  hex : UuidHex
  spareHex : Nat → UuidHex

/-- The operations on one list, with their arguments. -/
inductive Op where
  | create (subject description activeForm owner blocks blockedBy
      metadata : PyVal)
  | update (taskId : String) (patch : Patch) (strictSingleInProgress : Bool)
  | archive (taskId : String) (archivedBy : PyVal)
  | unarchive (taskId : String)
  | delete (taskId : String)
  | claim (taskId : String) (owner : PyVal) (flags : ClaimFlags)
  | release (taskId : String)
  | assignNext (owner : PyVal) (flags : ClaimFlags)
  | addDependency (blockerTaskId blockedTaskId : String)
  | removeDependency (blockerTaskId blockedTaskId : String)
  | getSnapshot
  | get (taskId : String)
  | list (includeArchived : Bool)
  | getOrchestrationSnapshot (includeArchived : Bool)
  | getOrchestrationTask (taskId : String) (includeArchived : Bool)

def Op.isCreate : Op → Bool
  | .create .. => true
  | _ => false

/-- What an operation returns. -/
inductive Result where
  | task (t : TaskListEntry)
  | optionalTask (t : Option TaskListEntry)
  | tasks (ts : List TaskListEntry)
  | snapshot (s : TaskListSnapshot)
  | snapshots (ss : List TaskListSnapshot)
  | orchestration (o : TaskOrchestrationSnapshot)
  | optionalEntry (e : Option TaskOrchestrationEntry)

/-- A result, and the snapshot to save if there is one. -/
abbrev Outcome := Result × Option TaskListSnapshot

section Operations

variable (s : TaskListSnapshot) (env : Env)

def create (subject description activeForm owner blocks blockedBy
    metadata : PyVal) : Except Raised Outcome := do
  let normalizedSubject := pyStrip (pyStr subject)
  raiseIf (normalizedSubject = "")
    (taskListInvalidRequestError "task_create requires a non-empty subject" [])
  let task : TaskListEntry :=
    { taskId := env.hex.text
      subject := normalizedSubject
      description := coerceOptionalString description
      activeForm := coerceOptionalString activeForm
      status := some .pending
      owner := coerceOptionalString owner
      blocks := []
      blockedBy := []
      metadata := SortedMap.build (coerceMapping metadata)
      archive := none
      createdAt := env.now
      updatedAt := env.now }
  let tasks := s.tasks ++ [task]
  if blocks.truthy || blockedBy.truthy then do
    let (tasks, _) ← applyDependencyOverrides tasks s.listId task.taskId
      blocks blockedBy env.now
    .ok (.task ((taskMap tasks task.taskId).getD task),
      some (s.replace tasks env.now))
  else .ok (.task task, some (s.replace tasks env.now))

def update (taskId : String) (patch : Patch) (strictSingleInProgress : Bool) :
    Except Raised Outcome := do
  raiseIf (patch = [])
    (taskListInvalidRequestError
      "task_update requires at least one supported mutable field"
      [("task_list_id", .str s.listId), ("task_id", .str taskId)])
  let index ← findTaskIndex s.tasks s.listId taskId
  let existing := s.tasks.get index
  assertTaskMutable existing s.listId
  let updated ← applyPatch existing patch env.now
  checkSingleInProgress strictSingleInProgress s.tasks s.listId taskId
    updated.status
  .ok (.task updated,
    some (s.replace (s.tasks.set index updated) updated.updatedAt))

def statusValue (task : TaskListEntry) : Except Raised String :=
  match task.status with
  | some status => .ok status.value
  | none => .error
      (.attributeError "'NoneType' object has no attribute 'value'")

def archive (taskId : String) (archivedBy : PyVal) :
    Except Raised Outcome := do
  let index ← findTaskIndex s.tasks s.listId taskId
  let existing := s.tasks.get index
  raiseIf (existing.isArchived = true)
    (taskListLifecycleError "already_archived"
      ("Task '" ++ taskId ++ "' in task list '" ++ s.listId
        ++ "' is already archived")
      s.listId taskId [])
  if existing.status ≠ some .completed then do
    let value ← statusValue existing
    .error (taskListLifecycleError "archive_requires_completed"
      ("Task '" ++ taskId ++ "' in task list '" ++ s.listId
        ++ "' must be completed before archiving")
      s.listId taskId [("status", .str value)])
  else
    let archived := { existing with
      archive := some ⟨some env.now, coerceOptionalString archivedBy⟩
      updatedAt := env.now }
    .ok (.task archived,
      some (s.replace (s.tasks.set index archived) env.now))

def unarchive (taskId : String) : Except Raised Outcome := do
  let index ← findTaskIndex s.tasks s.listId taskId
  let existing := s.tasks.get index
  raiseIf (existing.isArchived = false)
    (taskListLifecycleError "not_archived"
      ("Task '" ++ taskId ++ "' in task list '" ++ s.listId
        ++ "' is not archived")
      s.listId taskId [])
  let updated := { existing with archive := none, updatedAt := env.now }
  .ok (.task updated, some (s.replace (s.tasks.set index updated) env.now))

def delete (taskId : String) : Except Raised Outcome := do
  let index ← findTaskIndex s.tasks s.listId taskId
  let deleted := s.tasks.get index
  raiseIf (deleted.isArchived = false)
    (taskListLifecycleError "delete_requires_archived"
      ("Task '" ++ taskId ++ "' in task list '" ++ s.listId
        ++ "' must be archived before deletion")
      s.listId taskId [])
  let remaining := s.tasks.filter fun t => t.taskId ≠ taskId
  raiseIf (remaining.length = s.tasks.length)
    (taskListNotFoundError s.listId taskId)
  let edges := normalizedDependencyGraph remaining
  .ok (.task deleted,
    some (s.replace (tasksFromGraph remaining edges env.now).1 env.now))

/-- The snapshot to save after a claim or a release. -/
def saveChange (change : TaskChange) : Option TaskListSnapshot :=
  if change.changed then some (s.replace change.tasks change.task.updatedAt)
  else none

def claim (taskId : String) (owner : PyVal) (flags : ClaimFlags) :
    Except Raised Outcome := do
  let index ← findTaskIndex s.tasks s.listId taskId
  assertTaskMutable (s.tasks.get index) s.listId
  let change ← claimTask s.tasks s.listId taskId owner flags env.now
  .ok (.task change.task, saveChange s change)

def release (taskId : String) : Except Raised Outcome := do
  let index ← findTaskIndex s.tasks s.listId taskId
  assertTaskMutable (s.tasks.get index) s.listId
  let change ← releaseTask s.tasks s.listId taskId env.now
  .ok (.task change.task, saveChange s change)

/-- The first task the view shows as available. -/
def nextAvailable (view : TaskOrchestrationSnapshot) : Option String :=
  (view.tasks.find? fun e => e.readinessState = .available).map
    (·.task.taskId)

def assignNext (owner : PyVal) (flags : ClaimFlags) :
    Except Raised Outcome := do
  let normalizedOwner ← orRaise (coerceOptionalString owner)
    (taskListInvalidRequestError
      "task_assign_next requires a non-empty owner"
      [("task_list_id", .str s.listId)])
  match nextAvailable (deriveOrchestrationSnapshot s false) with
  | none => .ok (.optionalTask none, none)
  | some nextTaskId => do
    let change ← claimTask s.tasks s.listId nextTaskId
      (.str normalizedOwner) flags env.now
    .ok (.optionalTask (some change.task), saveChange s change)

def changeDependency (blockerTaskId blockedTaskId : String) (remove : Bool) :
    Except Raised Outcome := do
  let (tasks, changed) ← mutateDependencyGraph s.tasks s.listId
    blockerTaskId blockedTaskId remove env.now
  .ok (.tasks ((taskMap tasks blockerTaskId).toList
      ++ (taskMap tasks blockedTaskId).toList),
    if changed then some (s.replace tasks env.now) else none)

def list (includeArchived : Bool) : List TaskListEntry :=
  (visibleTasks s.tasks includeArchived).map fun t =>
    projectTaskEntry t (archivedTaskIds s.tasks) includeArchived

/-- An operation on the loaded snapshot. -/
def apply : Op → Except Raised Outcome
  | .create subject description activeForm owner blocks blockedBy metadata =>
    create s env subject description activeForm owner blocks blockedBy
      metadata
  | .update taskId patch strict => update s env taskId patch strict
  | .archive taskId archivedBy => archive s env taskId archivedBy
  | .unarchive taskId => unarchive s env taskId
  | .delete taskId => delete s env taskId
  | .claim taskId owner flags => claim s env taskId owner flags
  | .release taskId => release s env taskId
  | .assignNext owner flags => assignNext s env owner flags
  | .addDependency blocker blocked =>
    changeDependency s env blocker blocked false
  | .removeDependency blocker blocked =>
    changeDependency s env blocker blocked true
  | .getSnapshot => .ok (.snapshot s, none)
  | .get taskId => .ok (.optionalTask (taskMap s.tasks taskId), none)
  | .list includeArchived => .ok (.tasks (list s includeArchived), none)
  | .getOrchestrationSnapshot includeArchived =>
    .ok (.orchestration (deriveOrchestrationSnapshot s includeArchived),
      none)
  | .getOrchestrationTask taskId includeArchived =>
    .ok (.optionalEntry
      ((deriveOrchestrationSnapshot s includeArchived).tasks.find?
        fun e => e.task.taskId = taskId), none)

end Operations

-- ========= the service

/-- The store protocol. -/
structure Store (σ : Type) where
  load : σ → Env → String → Except Raised (Option TaskListSnapshot)
  save : σ → TaskListSnapshot → Except Raised σ
  listSnapshots : σ → Env → Except Raised (List TaskListSnapshot)

/-- A call of the service. -/
inductive Request where
  | onList (listId : String) (op : Op)
  | listSnapshots

section Service

variable {σ : Type} (store : Store σ)

def getSnapshot (st : σ) (env : Env) (listId : String) :
    Except Raised TaskListSnapshot := do
  let loaded ← store.load st env listId
  .ok (loaded.getD (.build listId [] env.now))

/-- The save at the end of a call. -/
def saveIfAny (st : σ) : Option TaskListSnapshot → Except Raised σ
  | none => .ok st
  | some snapshot => store.save st snapshot

def callOnList (st : σ) (env : Env) (listId : String) (op : Op) :
    Except Raised (Result × σ) := do
  let snapshot ← getSnapshot store st env listId
  let outcome ← apply snapshot env op
  let st' ← saveIfAny store st outcome.2
  .ok (outcome.1, st')

def call (st : σ) (env : Env) : Request → Except Raised (Result × σ)
  | .onList listId op => callOnList store st env listId op
  | .listSnapshots => do
    let snapshots ← store.listSnapshots st env
    .ok (.snapshots snapshots, st)

/-- The store a call leaves; one that raises changes nothing. -/
def leaves (st : σ) : Except Raised (Result × σ) → σ
  | .ok (_, st') => st'
  | .error _ => st

def stateAfter (st : σ) (env : Env) (request : Request) : σ :=
  leaves st (call store st env request)

/-- What a call returns or raises. -/
def resultOf (st : σ) (env : Env) (request : Request) :
    Except Raised Result :=
  (call store st env request).map Prod.fst

/-- A generated id is not taken in the list. -/
def Fresh (env : Env) (op : Op) (loaded : Except Raised TaskListSnapshot) :
    Prop :=
  op.isCreate = true → ∀ s ∈ loaded.toOption, env.hex.text ∉ taskIds s.tasks

instance (env : Env) (op : Op) (loaded : Except Raised TaskListSnapshot) :
    Decidable (Fresh env op loaded) :=
  inferInstanceAs (Decidable (_ → _))

/-- The environment may make this call. -/
def Enabled (st : σ) (env : Env) (request : Request) : Prop :=
  match request with
  | .onList listId op => Fresh env op (getSnapshot store st env listId)
  | .listSnapshots => True

instance (st : σ) (env : Env) (request : Request) :
    Decidable (Enabled store st env request) :=
  match request with
  | .onList _ _ => inferInstanceAs (Decidable (Fresh _ _ _))
  | .listSnapshots => inferInstanceAs (Decidable True)

/-- The service over a store, one call after another. -/
def service : System σ (Env × Request) where
  step st c :=
    if Enabled store st c.1 c.2 then some (stateAfter store st c.1 c.2)
    else none

end Service

def inMemoryTaskListStore : Store (Dict String TaskListSnapshot) where
  load st _ listId := .ok (st.get? listId)
  save st snapshot := .ok (st.insert snapshot.listId snapshot)
  listSnapshots st _ :=
    .ok ((st.keys.insertionSort (· ≤ ·)).filterMap st.get?)

end WeaveRuntime.TaskLists
