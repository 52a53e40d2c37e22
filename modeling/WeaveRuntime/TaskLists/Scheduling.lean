/-
What the invariant gives a worker that looks for a task.

# The view and the claims agree

In a well-formed list the unresolved blockers the view shows for a task
are the ones a claim checks (`blockers_agree`): both sort the same ids in
the same order, since `blocked_by` holds what the graph leads from, and
both keep the same ones, since an archived blocker is completed.

# No deadlock

The unfinished tasks of the list are a part of an acyclic graph, so one
of them is blocked by none of them (`exists_unblocked`). Where nobody
holds a task that one is available, and the checks the flags of
`assign_next` add have nothing to find.
-/
import WeaveRuntime.TaskLists.Invariant

namespace WeaveRuntime.TaskLists

open Lib
open Lib.Graph
open Python

-- ========= projections

section Project

variable (t : TaskListEntry) (archived : List String) (incl : Bool)

theorem projectTaskEntry_eq : ∃ blocks blockedBy,
    projectTaskEntry t archived incl = { t with blocks, blockedBy } := by
  unfold projectTaskEntry
  split
  · exact ⟨t.blocks, t.blockedBy, rfl⟩
  · dsimp only
    split
    · exact ⟨t.blocks, t.blockedBy, rfl⟩
    · exact ⟨_, _, rfl⟩

@[simp] theorem taskId_projectTaskEntry :
    (projectTaskEntry t archived incl).taskId = t.taskId := by
  obtain ⟨b, bb, h⟩ := projectTaskEntry_eq t archived incl
  rw [h]

@[simp] theorem isArchived_projectTaskEntry :
    (projectTaskEntry t archived incl).isArchived = t.isArchived := by
  obtain ⟨b, bb, h⟩ := projectTaskEntry_eq t archived incl
  rw [h]
  rfl

@[simp] theorem readinessState_projectTaskEntry (blockers : List String) :
    readinessState (projectTaskEntry t archived incl) blockers
      = readinessState t blockers := by
  obtain ⟨b, bb, h⟩ := projectTaskEntry_eq t archived incl
  rw [h]
  rfl

theorem blockedBy_projectTaskEntry :
    (projectTaskEntry t archived incl).blockedBy = t.blockedBy
      ∨ (projectTaskEntry t archived incl).blockedBy
        = t.blockedBy.filter (· ∉ archived) := by
  unfold projectTaskEntry
  split
  · exact Or.inl rfl
  · dsimp only
    split
    · exact Or.inl rfl
    · exact Or.inr rfl

end Project

variable {s : TaskListSnapshot} {t : TaskListEntry}
  {tasks : List TaskListEntry}

theorem readinessState_available {blockers : List String} :
    readinessState t blockers = .available
      ↔ t.status ≠ some .completed ∧ t.status ≠ some .inProgress
        ∧ t.owner = none ∧ blockers = [] := by
  unfold readinessState
  split
  · next h => simp [h]
  · next h =>
    split
    · next h' => simp [h']
    · next h' =>
      split
      · next h'' =>
        have hne : t.owner ≠ none := Option.isSome_iff_ne_none.1 h''
        simp [hne]
      · next h'' =>
        have hnone : t.owner = none := by simpa using h''
        split
        · next hb => simp [hb]
        · next hb => simp [h, h', hnone, not_not.1 hb]

-- ============= lookups

theorem Linked.taskMap_eq (h : Linked tasks) (ht : t ∈ tasks) :
    taskMap tasks t.taskId = some t := by
  unfold taskMap
  cases hfind : tasks.find? fun u => u.taskId = t.taskId with
  | none =>
    have hnone := List.find?_eq_none.1 hfind t ht
    simp at hnone
  | some u =>
    have hid : u.taskId = t.taskId := by simpa using List.find?_some hfind
    rw [h.unique (List.mem_of_find?_eq_some hfind) ht hid]

theorem mem_view {incl : Bool} {e : TaskOrchestrationEntry} :
    e ∈ (deriveOrchestrationSnapshot s incl).tasks
      ↔ ∃ t ∈ visibleTasks s.tasks incl,
        orchestrationEntry s.tasks incl t = e := by
  show e ∈ List.insertionSort _ _ ↔ _
  rw [List.mem_insertionSort, List.mem_map]

theorem mem_visibleTasks {incl : Bool} :
    t ∈ visibleTasks tasks incl
      ↔ t ∈ tasks ∧ (incl = true ∨ t.isArchived = false) := by
  unfold visibleTasks
  split
  · next h => simp [h]
  · next h => simp [h, List.mem_filter]

theorem taskId_orchestrationEntry (tasks : List TaskListEntry) (incl : Bool)
    (t : TaskListEntry) :
    (orchestrationEntry tasks incl t).task.taskId = t.taskId :=
  taskId_projectTaskEntry ..

theorem view_entry (h : Linked s.tasks) {incl : Bool}
    {e : TaskOrchestrationEntry}
    (he : e ∈ (deriveOrchestrationSnapshot s incl).tasks) (ht : t ∈ s.tasks)
    (hid : e.task.taskId = t.taskId) :
    e = orchestrationEntry s.tasks incl t := by
  obtain ⟨u, hu, rfl⟩ := mem_view.1 he
  rw [taskId_orchestrationEntry] at hid
  rw [h.unique (mem_visibleTasks.1 hu).1 ht hid]

-- ==== the two computations

theorem openBlocker_eq (h : WellFormed tasks) {u : TaskListEntry}
    (hu : u ∈ tasks) :
    openBlocker tasks u.taskId = decide (u.status ≠ some .completed) := by
  unfold openBlocker
  rw [h.taskMap_eq hu]
  cases harchived : u.isArchived with
  | true =>
    have hdone := h.archivedCompleted u hu harchived
    simp [harchived, hdone]
  | false => simp [harchived]

theorem not_archived_of_openBlocker (h : WellFormed tasks) {u : TaskListEntry}
    (hu : u ∈ tasks) (hopen : openBlocker tasks u.taskId = true) :
    u.taskId ∉ archivedTaskIds tasks := by
  intro hmem
  obtain ⟨v, hv, hid⟩ := List.mem_map.1 hmem
  rw [List.mem_filter] at hv
  have hsame := h.unique hv.1 hu hid
  rw [openBlocker_eq h hu, decide_eq_true_eq] at hopen
  exact hopen (h.archivedCompleted u hu (hsame ▸ hv.2))

theorem blockers_agree (h : WellFormed tasks) (ht : t ∈ tasks) (incl : Bool) :
    (orchestrationEntry tasks incl t).unresolvedBlockers
      = unresolvedBlockers tasks t.taskId := by
  let ids := taskIds tasks
  have htask : ∀ b ∈ t.blockedBy, ∃ u ∈ tasks, u.taskId = b := by
    intro b hb
    exact List.mem_map.1 (h.closed t ht b (Or.inr hb))
  -- projecting archived ids out removes no open blocker
  have hproject : (projectTaskEntry t (archivedTaskIds tasks)
        incl).blockedBy.filter (openBlocker tasks)
      = t.blockedBy.filter (openBlocker tasks) := by
    rcases blockedBy_projectTaskEntry t (archivedTaskIds tasks) incl with
      hp | hp
    · rw [hp]
    · rw [hp, List.filter_filter]
      refine List.filter_congr fun b hb => ?_
      obtain ⟨u, hu, rfl⟩ := htask b hb
      cases hopen : openBlocker tasks u.taskId with
      | false => rfl
      | true => simp [not_archived_of_openBlocker h hu hopen]
  -- the graph leads to the task from its blockers
  have hperm : (predecessors (normalizedDependencyGraph tasks) t.taskId).Perm
      t.blockedBy :=
    (List.perm_ext_iff_of_nodup
      (nodup_predecessors (List.nodup_dedup _) _)
      (h.nodupBlockedBy t ht)).2
      fun a => mem_predecessors_normalized h.toLinked ht
  show (sortedIds ids _).filter (openBlocker tasks) = _
  unfold unresolvedBlockers
  rw [← sortedIds_filter, hproject, sortedIds_filter, sortedIds_congr hperm]
  refine List.filter_congr fun b hb => ?_
  obtain ⟨u, hu, rfl⟩ := htask b (mem_sortedIds.1 hb)
  rw [openBlocker_eq h hu, h.taskMap_eq hu]

-- ==== what a claim checks

section Claim

variable {tasks : List TaskListEntry} {listId : String} {owner : PyVal}
  {flags : ClaimFlags} {now : Datetime}

theorem blockers_of_blocked {taskId : String} {e : Raised}
    (hr : claimTask tasks listId taskId owner flags now = .error e)
    (hblocked : e.isBlocked = true) :
    unresolvedBlockers tasks taskId ≠ []
      ∧ taskListBlockedError listId taskId (unresolvedBlockers tasks taskId)
        = e := by
  -- the errors of the other checks are of other classes
  have hsingle : ∀ desired e', checkSingleInProgress
      flags.strictSingleInProgress tasks listId taskId desired = .error e' →
      e'.isBlocked = false := by
    intro desired e' he
    unfold checkSingleInProgress validateSingleInProgress at he
    split at he
    · split at he
      · cases he
        rfl
      · cases he
    · cases he
  have howner : ∀ o e', flags.checkOwner tasks listId taskId o = .error e' →
      e'.isBlocked = false := by
    intro o e' he
    unfold ClaimFlags.checkOwner assertOwnerAvailable at he
    split at he
    · split at he
      · cases he
        rfl
      · cases he
    · cases he
  have habsurd : ∀ {e' : Raised}, e'.isBlocked = false → e = e' → False := by
    intro e' hf he
    rw [he, hf] at hblocked
    exact Bool.false_ne_true hblocked
  unfold claimTask at hr
  rcases bind_eq_error.1 hr with hr | ⟨o, -, hr⟩
  · unfold orRaise at hr
    split at hr
    · cases hr
    · exact (habsurd rfl (Except.error.inj hr).symm).elim
  rcases bind_eq_error.1 hr with hr | ⟨i, -, hr⟩
  · unfold findTaskIndex at hr
    split at hr
    · cases hr
    · exact (habsurd rfl (Except.error.inj hr).symm).elim
  rcases bind_eq_error.1 hr with hr | ⟨_, -, hr⟩
  · exact (habsurd rfl (raiseIf_eq_error.1 hr).2.symm).elim
  rcases bind_eq_error.1 hr with hr | ⟨_, -, hr⟩
  · exact (habsurd rfl (raiseIf_eq_error.1 hr).2.symm).elim
  dsimp only at hr
  split at hr
  · split at hr
    · cases hr
    · rcases bind_eq_error.1 hr with hr | ⟨_, -, hr⟩
      · exact raiseIf_eq_error.1 hr
      rcases bind_eq_error.1 hr with hr | ⟨_, -, hr⟩
      · exact (habsurd (hsingle _ _ hr) rfl).elim
      · cases hr
  · rcases bind_eq_error.1 hr with hr | ⟨_, -, hr⟩
    · exact (habsurd rfl (raiseIf_eq_error.1 hr).2.symm).elim
    rcases bind_eq_error.1 hr with hr | ⟨_, -, hr⟩
    · exact raiseIf_eq_error.1 hr
    rcases bind_eq_error.1 hr with hr | ⟨_, -, hr⟩
    · exact (habsurd (howner _ _ hr) rfl).elim
    rcases bind_eq_error.1 hr with hr | ⟨_, -, hr⟩
    · exact (habsurd (hsingle _ _ hr) rfl).elim
    · cases hr

theorem claimTask_blocked (h : Linked tasks) {t : TaskListEntry}
    (ht : t ∈ tasks) (hopen : t.isArchived = false)
    (hdone : t.status ≠ some .completed) (hown : t.owner = none)
    {o : String} (ho : coerceOptionalString owner = some o)
    (hblockers : unresolvedBlockers tasks t.taskId ≠ []) :
    claimTask tasks listId t.taskId owner flags now
      = .error (taskListBlockedError listId t.taskId
        (unresolvedBlockers tasks t.taskId)) := by
  obtain ⟨i, hi, hget⟩ := h.findTaskIndex_eq ht listId
  have hne : ¬ (none : Option String) = some o := by simp
  unfold claimTask
  rw [ho, orRaise_some, ok_bind, hi, ok_bind]
  dsimp only
  rw [hget, mutable_of_not_archived listId hopen, ok_bind,
    raiseIf_of_not hdone, ok_bind, hown, if_neg hne,
    raiseIf_of_not (not_not.2 rfl), ok_bind, raiseIf_of hblockers]
  rfl

/-- A claim of an unowned open task without unresolved blockers, which
passes the checks its flags ask for. -/
theorem claimTask_available (listId : String) (flags : ClaimFlags)
    (now : Datetime) (h : Linked tasks) {t : TaskListEntry} (ht : t ∈ tasks)
    (hopen : t.isArchived = false) (hdone : t.status ≠ some .completed)
    (hown : t.owner = none)
    {o : String} (ho : coerceOptionalString owner = some o)
    (hblockers : unresolvedBlockers tasks t.taskId = [])
    (hbusy : flags.checkOwner tasks listId t.taskId o = .ok ())
    (hsingle : checkSingleInProgress flags.strictSingleInProgress tasks
      listId t.taskId (flags.desiredStatus t.status) = .ok ()) :
    ∃ c, claimTask tasks listId t.taskId owner flags now = .ok c
      ∧ c.task.taskId = t.taskId ∧ c.task.owner = some o := by
  obtain ⟨i, hi, hget⟩ := h.findTaskIndex_eq ht listId
  have hne : ¬ (none : Option String) = some o := by simp
  let claimed : TaskListEntry := { t with
    owner := some o
    status := flags.desiredStatus t.status
    updatedAt := now }
  refine ⟨⟨tasks.set i claimed, claimed, true⟩, ?_, rfl, rfl⟩
  unfold claimTask
  rw [ho, orRaise_some, ok_bind, hi, ok_bind]
  dsimp only
  rw [hget, mutable_of_not_archived listId hopen, ok_bind,
    raiseIf_of_not hdone, ok_bind, hown, if_neg hne,
    raiseIf_of_not (not_not.2 rfl), ok_bind,
    raiseIf_of_not (not_not.2 hblockers), ok_bind, hbusy, ok_bind, hsingle,
    ok_bind]

end Claim

-- ==== the view of a list

section View

variable {s : TaskListSnapshot}

variable {owner : PyVal} {t : TaskListEntry}

theorem available_entry_iff (h : WellFormed s.tasks) (ht : t ∈ s.tasks)
    (incl : Bool) :
    (orchestrationEntry s.tasks incl t).readinessState = .available
      ↔ t.status ≠ some .completed ∧ t.status ≠ some .inProgress
        ∧ t.owner = none ∧ unresolvedBlockers s.tasks t.taskId = [] := by
  rw [← blockers_agree h ht incl, ← readinessState_available,
    ← readinessState_projectTaskEntry t (archivedTaskIds s.tasks) incl]
  rfl

theorem mem_availableTaskIds {incl : Bool} {taskId : String} :
    taskId ∈ (deriveOrchestrationSnapshot s incl).availableTaskIds
      ↔ ∃ t ∈ s.tasks, t.isArchived = false ∧ t.taskId = taskId
        ∧ (orchestrationEntry s.tasks incl t).readinessState
          = .available := by
  have hopen : ∀ t, (orchestrationEntry s.tasks incl t).task.isArchived
      = t.isArchived := fun t => isArchived_projectTaskEntry ..
  show taskId ∈ List.map _ (List.filter _ (List.filter _ _)) ↔ _
  simp only [List.mem_map, List.mem_filter, decide_eq_true_eq,
    Bool.not_eq_true']
  constructor
  · intro hmem
    obtain ⟨e, ⟨⟨⟨t, ht, rfl⟩, harchived⟩, hstate⟩, hid⟩ := hmem
    rw [hopen] at harchived
    rw [taskId_orchestrationEntry] at hid
    exact ⟨t, (mem_visibleTasks.1 ht).1, harchived, hid, hstate⟩
  · intro hmem
    obtain ⟨t, ht, harchived, hid, hstate⟩ := hmem
    refine ⟨_, ⟨⟨⟨t, mem_visibleTasks.2 ⟨ht, Or.inr harchived⟩, rfl⟩, ?_⟩,
      hstate⟩, ?_⟩
    · rw [hopen]
      exact harchived
    · rw [taskId_orchestrationEntry]
      exact hid

theorem nextAvailable_spec {taskId : String}
    (hnext : nextAvailable (deriveOrchestrationSnapshot s false)
      = some taskId) :
    ∃ t ∈ s.tasks, t.isArchived = false ∧ t.taskId = taskId
      ∧ (orchestrationEntry s.tasks false t).readinessState = .available := by
  obtain ⟨e, hfind, hid⟩ := Option.map_eq_some_iff.1 hnext
  obtain ⟨t, ht, rfl⟩ := mem_view.1 (List.mem_of_find?_eq_some hfind)
  have hstate := List.find?_some hfind
  rw [decide_eq_true_eq] at hstate
  rw [taskId_orchestrationEntry] at hid
  obtain ⟨hmem, hvisible⟩ := mem_visibleTasks.1 ht
  rcases hvisible with hvisible | hvisible
  · cases hvisible
  · exact ⟨t, hmem, hvisible, hid, hstate⟩

/-- Where the view shows an available task, `assign_next` picks one. -/
theorem nextAvailable_of_available (ht : t ∈ s.tasks)
    (hopen : t.isArchived = false)
    (hstate : (orchestrationEntry s.tasks false t).readinessState
      = .available) :
    ∃ taskId, nextAvailable (deriveOrchestrationSnapshot s false)
      = some taskId := by
  have hmem : orchestrationEntry s.tasks false t
      ∈ (deriveOrchestrationSnapshot s false).tasks :=
    mem_view.2 ⟨t, mem_visibleTasks.2 ⟨ht, Or.inr hopen⟩, rfl⟩
  cases hnext : nextAvailable (deriveOrchestrationSnapshot s false) with
  | some taskId => exact ⟨taskId, rfl⟩
  | none =>
    have hfind := Option.map_eq_none_iff.1 hnext
    have hnot := List.find?_eq_none.1 hfind _ hmem
    exact absurd hstate (by simpa using hnot)

theorem exists_unblocked (h : WellFormed s.tasks)
    (hunfinished : ∃ t ∈ s.tasks, t.isArchived = false
      ∧ t.status ≠ some .completed) :
    ∃ t ∈ s.tasks, t.isArchived = false ∧ t.status ≠ some .completed
      ∧ unresolvedBlockers s.tasks t.taskId = [] := by
  let unfinished := s.tasks.filter fun t =>
    t.isArchived = false ∧ t.status ≠ some .completed
  have hmem : ∀ t, t ∈ unfinished ↔ t ∈ s.tasks ∧ t.isArchived = false
      ∧ t.status ≠ some .completed := by
    intro t
    show t ∈ List.filter _ _ ↔ _
    rw [List.mem_filter, decide_eq_true_eq]
  have hne : taskIds unfinished ≠ [] := by
    obtain ⟨t, ht, hopen⟩ := hunfinished
    exact List.ne_nil_of_mem (mem_taskIds ((hmem t).2 ⟨ht, hopen⟩))
  obtain ⟨a, ha, hmin⟩ := h.acyclic.exists_minimal hne
  obtain ⟨t, ht, rfl⟩ := List.mem_map.1 ha
  obtain ⟨htask, hopen, hdone⟩ := (hmem t).1 ht
  refine ⟨t, htask, hopen, hdone, ?_⟩
  -- a blocker that is left would be an unfinished task before `t`
  rw [← blockers_agree h htask true]
  show (sortedIds (taskIds s.tasks) t.blockedBy).filter
    (openBlocker s.tasks) = []
  rw [List.filter_eq_nil_iff]
  intro b hb hopen'
  have hblocked := mem_sortedIds.1 hb
  obtain ⟨u, hu, rfl⟩ := List.mem_map.1 (h.closed t htask b (Or.inr hblocked))
  have hudone := hopen'
  rw [openBlocker_eq h hu, decide_eq_true_eq] at hudone
  have huopen : u.isArchived = false := by
    by_contra harchived
    rw [Bool.not_eq_false] at harchived
    exact hudone (h.archivedCompleted u hu harchived)
  have hedge : Blocks s.tasks u.taskId t.taskId :=
    ⟨u, hu, rfl, (h.symmetric u hu t htask).2 hblocked⟩
  exact hmin u.taskId (mem_taskIds ((hmem u).2 ⟨hu, huopen, hudone⟩))
    (.single hedge)

theorem checkSingleInProgress_idle (h : WellFormed s.tasks)
    (hidle : ∀ t ∈ s.tasks, t.isArchived = false →
      t.status ≠ some .inProgress) (strict : Bool) (listId taskId : String)
    (desired : Option TaskListStatus) :
    checkSingleInProgress strict s.tasks listId taskId desired = .ok () := by
  have hnone : (s.tasks.find? fun t =>
      t.taskId ≠ taskId ∧ t.status = some .inProgress) = none := by
    rw [List.find?_eq_none]
    intro t ht htest
    obtain ⟨-, hstatus⟩ := of_decide_eq_true htest
    cases harchived : t.isArchived with
    | true =>
      rw [h.archivedCompleted t ht harchived] at hstatus
      cases hstatus
    | false => exact hidle t ht harchived hstatus
  unfold checkSingleInProgress validateSingleInProgress
  rw [hnone]
  split <;> rfl

theorem checkOwner_idle (h : WellFormed s.tasks)
    (hidle : ∀ t ∈ s.tasks, t.isArchived = false → t.owner = none)
    (flags : ClaimFlags) (listId taskId owner : String) :
    flags.checkOwner s.tasks listId taskId owner = .ok () := by
  have hnone : (s.tasks.find? fun t => t.taskId ≠ taskId
      ∧ t.owner = some owner ∧ t.status ≠ some .completed) = none := by
    rw [List.find?_eq_none]
    intro t ht htest
    obtain ⟨-, hown, hdone⟩ := of_decide_eq_true htest
    cases harchived : t.isArchived with
    | true => exact hdone (h.archivedCompleted t ht harchived)
    | false =>
      rw [hidle t ht harchived] at hown
      cases hown
  unfold ClaimFlags.checkOwner assertOwnerAvailable
  rw [hnone]
  split <;> rfl

theorem claim_eq (h : Linked s.tasks) (ht : t ∈ s.tasks)
    (hopen : t.isArchived = false) (owner : PyVal) (flags : ClaimFlags)
    (env : Env) :
    claim s env t.taskId owner flags
      = (claimTask s.tasks s.listId t.taskId owner flags env.now >>=
        fun c => .ok (.task c.task, saveChange s c)) := by
  obtain ⟨i, hi, hget⟩ := h.findTaskIndex_eq ht s.listId
  unfold claim
  rw [hi, ok_bind, hget, mutable_of_not_archived _ hopen, ok_bind]

theorem claim_blocked (h : Linked s.tasks) (ht : t ∈ s.tasks)
    (hopen : t.isArchived = false) {flags : ClaimFlags} {env : Env}
    {e : Raised} (hr : claim s env t.taskId owner flags = .error e)
    (hblocked : e.isBlocked = true) :
    unresolvedBlockers s.tasks t.taskId ≠ []
      ∧ e = taskListBlockedError s.listId t.taskId
        (unresolvedBlockers s.tasks t.taskId) := by
  rw [claim_eq h ht hopen] at hr
  rcases bind_eq_error.1 hr with hr | ⟨c, -, hr⟩
  · obtain ⟨hne, he⟩ := blockers_of_blocked hr hblocked
    exact ⟨hne, he.symm⟩
  · cases hr

/-- A claim of a pending unowned task, with the default flags, succeeds
exactly when no blocker is left. -/
theorem claim_succeeds_iff (h : Linked s.tasks) (ht : t ∈ s.tasks)
    (hopen : t.isArchived = false) (hpending : t.status = some .pending)
    (hown : t.owner = none) (howner : coerceOptionalString owner ≠ none)
    (env : Env) :
    (∃ outcome, claim s env t.taskId owner {} = .ok outcome)
      ↔ unresolvedBlockers s.tasks t.taskId = [] := by
  obtain ⟨o, ho⟩ := Option.ne_none_iff_exists'.1 howner
  have hdone : t.status ≠ some .completed := by simp [hpending]
  rw [claim_eq h ht hopen]
  constructor
  · intro hr
    obtain ⟨outcome, hr⟩ := hr
    by_contra hne
    rw [claimTask_blocked h ht hopen hdone hown ho hne] at hr
    cases hr
  · intro hnil
    have hsingle : checkSingleInProgress false s.tasks s.listId t.taskId
        (({} : ClaimFlags).desiredStatus t.status) = .ok () := rfl
    obtain ⟨c, hc, -, -⟩ := claimTask_available s.listId {} env.now h ht hopen
      hdone hown ho hnil rfl hsingle
    rw [hc]
    exact ⟨_, rfl⟩

/-- The view shows a pending unowned task as available exactly when no
blocker is left. -/
theorem shown_available_iff (h : WellFormed s.tasks) (ht : t ∈ s.tasks)
    (hopen : t.isArchived = false) (hpending : t.status = some .pending)
    (hown : t.owner = none) (incl : Bool) :
    (∃ e ∈ (deriveOrchestrationSnapshot s incl).tasks,
      e.task.taskId = t.taskId ∧ e.readinessState = .available)
      ↔ unresolvedBlockers s.tasks t.taskId = [] := by
  have hstate := available_entry_iff h ht incl
  constructor
  · intro hshown
    obtain ⟨e, he, hid, havailable⟩ := hshown
    rw [view_entry h.toLinked he ht hid] at havailable
    exact (hstate.1 havailable).2.2.2
  · intro hnil
    refine ⟨_, mem_view.2 ⟨t, ?_, rfl⟩, taskId_orchestrationEntry .., ?_⟩
    · exact mem_visibleTasks.2 ⟨ht, Or.inr hopen⟩
    · refine hstate.2 ⟨?_, ?_, hown, hnil⟩
      · simp [hpending]
      · simp [hpending]

theorem assignNext_not_blocked (h : WellFormed s.tasks) {flags : ClaimFlags}
    {env : Env} {e : Raised} (hr : assignNext s env owner flags = .error e) :
    e.isBlocked = false := by
  unfold assignNext at hr
  rcases bind_eq_error.1 hr with hr | ⟨o, -, hr⟩
  · unfold orRaise at hr
    split at hr
    · cases hr
    · rw [← Except.error.inj hr]
      rfl
  · split at hr
    · cases hr
    · next taskId hnext =>
      rcases bind_eq_error.1 hr with hr | ⟨c, -, hr⟩
      · by_contra hblocked
        rw [Bool.not_eq_false] at hblocked
        obtain ⟨t, ht, -, rfl, hstate⟩ := nextAvailable_spec hnext
        obtain ⟨hne, -⟩ := blockers_of_blocked hr hblocked
        exact hne ((available_entry_iff h ht false).1 hstate).2.2.2
      · cases hr

/-- What it takes for the next task to be assigned: some open task is
unfinished, and nobody holds or works on an open task. -/
structure Idle (tasks : List TaskListEntry) : Prop where
  unfinished : ∃ t ∈ tasks, t.isArchived = false
    ∧ t.status ≠ some .completed
  notInProgress : ∀ t ∈ tasks, t.isArchived = false →
    t.status ≠ some .inProgress
  unowned : ∀ t ∈ tasks, t.isArchived = false → t.owner = none

theorem exists_available (h : WellFormed s.tasks) (hidle : Idle s.tasks)
    (incl : Bool) :
    ∃ t ∈ s.tasks, t.isArchived = false
      ∧ (orchestrationEntry s.tasks incl t).readinessState = .available := by
  obtain ⟨t, ht, hopen, hdone, hnil⟩ := exists_unblocked h hidle.unfinished
  exact ⟨t, ht, hopen, (available_entry_iff h ht incl).2
    ⟨hdone, hidle.notInProgress t ht hopen, hidle.unowned t ht hopen, hnil⟩⟩

theorem assignNext_claims (h : WellFormed s.tasks) (hidle : Idle s.tasks)
    {o : String} (ho : coerceOptionalString owner = some o)
    (flags : ClaimFlags) (env : Env) :
    ∃ t next, assignNext s env owner flags
        = .ok (.optionalTask (some t), next)
      ∧ t.owner = some o
      ∧ t.taskId ∈ (deriveOrchestrationSnapshot s false).availableTaskIds := by
  obtain ⟨t₀, ht₀, hopen₀, hstate₀⟩ := exists_available h hidle false
  obtain ⟨taskId, hnext⟩ := nextAvailable_of_available ht₀ hopen₀ hstate₀
  obtain ⟨t, ht, hopen, rfl, hstate⟩ := nextAvailable_spec hnext
  obtain ⟨hdone, -, hown, hnil⟩ := (available_entry_iff h ht false).1 hstate
  have hstripped : coerceOptionalString (.str o) = some o := by
    rw [coerceOptionalString_str]
    exact stripOrNone_of_stripped (stripped_of_coerceOptionalString ho)
  obtain ⟨c, hc, hid, hclaimed⟩ := claimTask_available s.listId flags env.now
    h.toLinked ht hopen hdone hown hstripped hnil
    (checkOwner_idle h hidle.unowned flags _ _ _)
    (checkSingleInProgress_idle h hidle.notInProgress _ _ _ _)
  refine ⟨c.task, saveChange s c, ?_, hclaimed, ?_⟩
  · unfold assignNext
    rw [ho, orRaise_some, ok_bind, hnext]
    dsimp only
    rw [hc, ok_bind]
  · rw [hid]
    exact mem_availableTaskIds.2 ⟨t, ht, hopen, rfl, hstate⟩

end View

-- ========= the service

theorem call_stored {st : Dict String TaskListSnapshot} {listId : String}
    (hstored : st.get? listId = some s) (env : Env) (op : Op) :
    call inMemoryTaskListStore st env (.onList listId op)
      = (apply s env op).map fun o => (o.1, saveInMemory st o.2) := by
  rw [call_inMemory, loadInMemory_stored hstored]

/-- In every stored list the view and the claim check agree on every task
that is not archived, a pending unowned task is available exactly when a
claim of it succeeds, and assigning the next task is never blocked. -/
theorem view_agrees_with_claim {st : Dict String TaskListSnapshot}
    (hreach : (service inMemoryTaskListStore).Reachable Dict.empty st)
    {listId : String} {s : TaskListSnapshot}
    (hstored : st.get? listId = some s) :
    (∀ t ∈ s.tasks, t.isArchived = false →
      (∀ incl, ∃ e ∈ (deriveOrchestrationSnapshot s incl).tasks,
        e.task.taskId = t.taskId)
      ∧ (∀ incl, ∀ e ∈ (deriveOrchestrationSnapshot s incl).tasks,
        e.task.taskId = t.taskId →
          e.unresolvedBlockers = unresolvedBlockers s.tasks t.taskId)
      ∧ (∀ owner flags env e,
        call inMemoryTaskListStore st env
          (.onList listId (.claim t.taskId owner flags)) = .error e →
        e.isBlocked = true →
          unresolvedBlockers s.tasks t.taskId ≠ []
          ∧ e = taskListBlockedError s.listId t.taskId
            (unresolvedBlockers s.tasks t.taskId))
      ∧ (t.status = some .pending → t.owner = none →
        ∀ owner env incl, coerceOptionalString owner ≠ none →
          ((∃ e ∈ (deriveOrchestrationSnapshot s incl).tasks,
              e.task.taskId = t.taskId ∧ e.readinessState = .available)
            ↔ ∃ r, call inMemoryTaskListStore st env
                (.onList listId (.claim t.taskId owner {})) = .ok r)))
    ∧ ∀ owner flags env e,
      call inMemoryTaskListStore st env
        (.onList listId (.assignNext owner flags)) = .error e →
      e.isBlocked = false := by
  obtain ⟨-, h⟩ := sound_of_reachable hreach listId s hstored
  refine ⟨?_, ?_⟩
  · intro t ht hopen
    refine ⟨?_, ?_, ?_, ?_⟩
    · intro incl
      refine ⟨_, mem_view.2 ⟨t, ?_, rfl⟩, taskId_orchestrationEntry ..⟩
      exact mem_visibleTasks.2 ⟨ht, Or.inr hopen⟩
    · intro incl e he hid
      rw [view_entry h.toLinked he ht hid, blockers_agree h ht]
    · intro owner flags env e hr hblocked
      rw [call_stored hstored] at hr
      exact claim_blocked h.toLinked ht hopen (map_eq_error.1 hr) hblocked
    · intro hpending hown owner env incl howner
      rw [shown_available_iff h ht hopen hpending hown, call_stored hstored,
        ← claim_succeeds_iff h.toLinked ht hopen hpending hown howner env]
      show _ ↔ ∃ r, (claim s env t.taskId owner {}).map _ = .ok r
      cases claim s env t.taskId owner {} with
      | ok outcome => exact ⟨fun _ => ⟨_, rfl⟩, fun _ => ⟨_, rfl⟩⟩
      | error e =>
        constructor
        · intro hr
          obtain ⟨outcome, hr⟩ := hr
          cases hr
        · intro hr
          obtain ⟨r, hr⟩ := hr
          cases hr
  · intro owner flags env e hr
    rw [call_stored hstored] at hr
    exact assignNext_not_blocked h (map_eq_error.1 hr)

-- ========= a fixed run

/-- The store after the first call of the fixed run: one pending task. -/
def createdStore : Dict String TaskListSnapshot :=
  ((service inMemoryTaskListStore).run Dict.empty
    (fixedRun.take 1)).getD Dict.empty

theorem reachable_createdStore :
    (service inMemoryTaskListStore).Reachable Dict.empty createdStore :=
  ⟨fixedRun.take 1, rfl⟩

/-- The one task of that store. -/
def createdTask : TaskListEntry :=
  { taskId := fixedEnv.hex.text
    subject := "draft"
    description := none
    activeForm := none
    status := some .pending
    owner := none
    blocks := []
    blockedBy := []
    metadata := SortedMap.build []
    archive := none
    createdAt := fixedEnv.now
    updatedAt := fixedEnv.now }

theorem createdStore_stored : createdStore.get? "inbox"
    = some (.build "inbox" [createdTask] fixedEnv.now) := rfl

theorem view_agrees_with_claim_created :
    ∃ r, call inMemoryTaskListStore createdStore fixedEnv
      (.onList "inbox" (.claim createdTask.taskId (.str "ann") {}))
      = .ok r := by
  obtain ⟨hall, -⟩ := view_agrees_with_claim reachable_createdStore
    createdStore_stored
  obtain ⟨-, -, -, hclaim⟩ :=
    hall createdTask (List.mem_singleton_self _) rfl
  exact (hclaim rfl rfl (.str "ann") fixedEnv true (by decide)).1
    ⟨_, List.mem_singleton_self _, rfl, rfl⟩

end WeaveRuntime.TaskLists
