/-
Shared task lists: the data model and the errors.

A task list is a snapshot: its tasks in order of creation, each with the
ids of the tasks it blocks and of those it is blocked by. The order is a
field of the snapshot, since every snapshot is built by a constructor
that sorts (`TaskListSnapshot.build`).

# What the types say

An archived task carries its `ArchiveInfo`; a task that is not archived
has none, as `__post_init__` clears both fields then. A status is
optional: `update` accepts a patch whose status is `None`. Metadata is a
mapping in canonical form, since no operation looks at its order.

Every list of tasks the service handles has distinct ids (`Linked` in
the invariant module), so a dictionary keyed by task id is a lookup in
the list.
-/
import WeaveRuntime.Lib.Raise
import WeaveRuntime.Python.Datetime
import WeaveRuntime.Python.Json
import Mathlib.Data.List.Sort

namespace WeaveRuntime.TaskLists

open Lib
open Python

-- ============ statuses

inductive TaskListStatus where
  | pending
  | inProgress
  | completed
  deriving DecidableEq, Repr

def TaskListStatus.value : TaskListStatus → String
  | .pending => "pending"
  | .inProgress => "in_progress"
  | .completed => "completed"

/-- The member with this value. -/
def TaskListStatus.ofValue : String → Option TaskListStatus
  | "pending" => some .pending
  | "in_progress" => some .inProgress
  | "completed" => some .completed
  | _ => none

@[simp] theorem TaskListStatus.ofValue_value (s : TaskListStatus) :
    ofValue s.value = some s := by
  cases s <;> rfl

inductive TaskReadinessState where
  | available
  | blocked
  | claimed
  | inProgress
  | completed
  deriving DecidableEq, Repr

-- ============= entries

/-- The archive fields of an archived task. -/
structure ArchiveInfo where
  archivedAt : Option Datetime
  archivedBy : Option String

abbrev Metadata := SortedMap String PyVal

structure TaskListEntry where
  taskId : String
  subject : String
  description : Option String
  activeForm : Option String
  status : Option TaskListStatus
  owner : Option String
  blocks : List String
  blockedBy : List String
  metadata : Metadata
  archive : Option ArchiveInfo
  createdAt : Datetime
  updatedAt : Datetime

namespace TaskListEntry

def isArchived (t : TaskListEntry) : Bool := t.archive.isSome

/-- The sort key of a snapshot's tasks, `(created_at, task_id)`. -/
def NotAfter (a b : TaskListEntry) : Prop :=
  a.createdAt.stamp < b.createdAt.stamp
    ∨ (a.createdAt.stamp = b.createdAt.stamp ∧ a.taskId ≤ b.taskId)

instance : DecidableRel NotAfter := fun _ _ =>
  inferInstanceAs (Decidable (_ ∨ _))

instance : Std.Total NotAfter where
  total a b := by
    unfold NotAfter
    rcases lt_trichotomy a.createdAt.stamp b.createdAt.stamp with h | h | h
    · exact Or.inl (Or.inl h)
    · rcases le_total a.taskId b.taskId with hid | hid
      · exact Or.inl (Or.inr ⟨h, hid⟩)
      · exact Or.inr (Or.inr ⟨h.symm, hid⟩)
    · exact Or.inr (Or.inl h)

instance : IsTrans TaskListEntry NotAfter where
  trans a b c := by
    unfold NotAfter
    intro hab hbc
    rcases hab with hab | ⟨hab, hidab⟩
    · rcases hbc with hbc | ⟨hbc, -⟩
      · exact Or.inl (lt_trans hab hbc)
      · exact Or.inl (lt_of_lt_of_eq hab hbc)
    · rcases hbc with hbc | ⟨hbc, hidbc⟩
      · exact Or.inl (lt_of_eq_of_lt hab hbc)
      · exact Or.inr ⟨Eq.trans hab hbc, le_trans hidab hidbc⟩

end TaskListEntry

def taskIds (tasks : List TaskListEntry) : List String :=
  tasks.map TaskListEntry.taskId

-- =========== snapshots

structure TaskListSnapshot where
  listId : String
  tasks : List TaskListEntry
  updatedAt : Datetime
  ordered : tasks.Pairwise TaskListEntry.NotAfter

namespace TaskListSnapshot

/-- The constructor: `__post_init__` sorts the tasks. -/
def build (listId : String) (tasks : List TaskListEntry)
    (updatedAt : Datetime) : TaskListSnapshot :=
  { listId
    tasks := tasks.insertionSort TaskListEntry.NotAfter
    updatedAt
    ordered := List.pairwise_insertionSort _ _ }

def replace (s : TaskListSnapshot) (tasks : List TaskListEntry)
    (updatedAt : Datetime) : TaskListSnapshot :=
  build s.listId tasks updatedAt

@[simp] theorem listId_build (listId : String) (tasks : List TaskListEntry)
    (at_ : Datetime) : (build listId tasks at_).listId = listId := rfl

@[simp] theorem listId_replace (s : TaskListSnapshot)
    (tasks : List TaskListEntry) (at_ : Datetime) :
    (s.replace tasks at_).listId = s.listId := rfl

theorem perm_replace (s : TaskListSnapshot) (tasks : List TaskListEntry)
    (at_ : Datetime) : (s.replace tasks at_).tasks.Perm tasks :=
  List.perm_insertionSort ..

theorem build_self (s : TaskListSnapshot) :
    build s.listId s.tasks s.updatedAt = s := by
  obtain ⟨listId, tasks, updatedAt, hordered⟩ := s
  unfold build
  congr
  exact hordered.insertionSort_eq

end TaskListSnapshot

-- ============== errors

inductive TaskListErrorClass where
  | notFound
  | invalidRequest
  | lifecycle
  | multipleInProgress
  | blocked
  | alreadyClaimed
  | ownerBusy
  | dependencyCycle
  deriving DecidableEq, Repr

/-- What a service call can raise: an error of its own, or one of the
interpreter's. -/
inductive Raised where
  | taskListError (cls : TaskListErrorClass) (code message : String)
      (details : List (String × PyVal))
  | valueError (message : String)
  | attributeError (message : String)
  deriving Repr

def idList (ids : List String) : PyVal := .list (ids.map .str)

/-- An optional text as a value. -/
def optText : Option String → PyVal
  | some s => .str s
  | none => .none

def taskListNotFoundError (listId taskId : String) : Raised :=
  .taskListError .notFound "not_found"
    ("Task '" ++ taskId ++ "' was not found in task list '" ++ listId ++ "'")
    [("task_list_id", .str listId), ("task_id", .str taskId)]

def taskListInvalidRequestError (message : String)
    (details : List (String × PyVal)) : Raised :=
  .taskListError .invalidRequest "invalid_request" message details

def taskListLifecycleError (code message listId taskId : String)
    (details : List (String × PyVal)) : Raised :=
  .taskListError .lifecycle code message
    ([("task_list_id", .str listId), ("task_id", .str taskId)] ++ details)

def taskListMultipleInProgressError (listId taskId existingTaskId : String) :
    Raised :=
  .taskListError .multipleInProgress "multiple_in_progress"
    ("Task list '" ++ listId ++ "' already has an in_progress task ('"
      ++ existingTaskId
      ++ "') and strict single in_progress enforcement is enabled")
    [("task_list_id", .str listId), ("task_id", .str taskId),
      ("existing_task_id", .str existingTaskId)]

def taskListBlockedError (listId taskId : String)
    (unresolvedBlockers : List String) : Raised :=
  .taskListError .blocked "blocked"
    ("Task '" ++ taskId ++ "' is blocked by unresolved tasks: "
      ++ ", ".intercalate unresolvedBlockers)
    [("task_list_id", .str listId), ("task_id", .str taskId),
      ("unresolved_blockers", idList unresolvedBlockers)]

def taskListAlreadyClaimedError (listId taskId : String)
    (owner : Option String) : Raised :=
  .taskListError .alreadyClaimed "already_claimed"
    ("Task '" ++ taskId ++ "' in task list '" ++ listId
      ++ "' is already claimed"
      ++ (match owner with
        | some o => if o = "" then "" else " by '" ++ o ++ "'"
        | none => ""))
    [("task_list_id", .str listId), ("task_id", .str taskId),
      ("owner", optText owner)]

def taskListOwnerBusyError (listId taskId owner existingTaskId : String) :
    Raised :=
  .taskListError .ownerBusy "owner_busy"
    ("Owner '" ++ owner ++ "' already holds unresolved task '"
      ++ existingTaskId ++ "' in task list '" ++ listId ++ "'")
    [("task_list_id", .str listId), ("task_id", .str taskId),
      ("owner", .str owner), ("existing_task_id", .str existingTaskId)]

def taskListDependencyCycleError (listId blockerTaskId blockedTaskId : String) :
    Raised :=
  .taskListError .dependencyCycle "dependency_cycle"
    ("Adding dependency '" ++ blockerTaskId ++ "' -> '" ++ blockedTaskId
      ++ "' would create a cycle in task list '" ++ listId ++ "'")
    [("task_list_id", .str listId),
      ("blocker_task_id", .str blockerTaskId),
      ("blocked_task_id", .str blockedTaskId)]

def Raised.isBlocked : Raised → Bool
  | .taskListError .blocked _ _ _ => true
  | _ => false

-- ====== finding a task

def findTaskIndex (tasks : List TaskListEntry) (listId taskId : String) :
    Except Raised (Fin tasks.length) :=
  match tasks.findFinIdx? fun t => t.taskId = taskId with
  | some index => .ok index
  | none => .error (taskListNotFoundError listId taskId)

def assertTaskMutable (task : TaskListEntry) (listId : String) :
    Except Raised Unit :=
  raiseIf (task.isArchived = true)
    (taskListLifecycleError "archived_task_immutable"
      ("Task '" ++ task.taskId ++ "' in task list '" ++ listId
        ++ "' is archived and cannot be modified")
      listId task.taskId [])

theorem taskId_of_findTaskIndex {tasks : List TaskListEntry}
    {listId taskId : String} {index : Fin tasks.length}
    (h : findTaskIndex tasks listId taskId = .ok index) :
    (tasks.get index).taskId = taskId := by
  unfold findTaskIndex at h
  split at h
  · next i hi =>
    cases h
    have hfound := (List.findFinIdx?_eq_some_iff.1 hi).1
    simpa using hfound
  · cases h

theorem findTaskIndex_of_mem {tasks : List TaskListEntry} {taskId : String}
    (listId : String) (h : taskId ∈ taskIds tasks) :
    ∃ index, findTaskIndex tasks listId taskId = .ok index := by
  unfold findTaskIndex
  cases hfind : tasks.findFinIdx? fun t => t.taskId = taskId with
  | some i => exact ⟨i, rfl⟩
  | none =>
    obtain ⟨t, ht, hid⟩ := List.mem_map.1 h
    have hnone := List.findFinIdx?_eq_none_iff.1 hfind t ht
    exact absurd hid (by simpa using hnone)

theorem isArchived_of_mutable {task : TaskListEntry} {listId : String}
    {u : Unit} (h : assertTaskMutable task listId = .ok u) :
    task.isArchived = false := by
  have hnot := raiseIf_eq_ok.1 h
  simpa using hnot

theorem mutable_of_not_archived {task : TaskListEntry} (listId : String)
    (h : task.isArchived = false) : assertTaskMutable task listId = .ok () :=
  raiseIf_of_not (by rw [h]; exact Bool.false_ne_true)

end WeaveRuntime.TaskLists
