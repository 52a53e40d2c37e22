/-
What an operation writes into the list, said once for each kind of write.

`Writes` is finer than `Saves`: it keeps apart the operations that replace
one task (`entry`), the ones that create one, and the ones that write the
tuples of all tasks from a graph, each with the graph it writes. `Op.names`
says which tasks an operation is about, `Op.strict` whether it asks for the
single-in-progress check; what the check promises is in `entry`.
-/
import WeaveRuntime.TaskLists.Invariant

namespace WeaveRuntime.TaskLists

open Lib
open Lib.Graph
open Python

-- ====== the operations

/-- The task an operation replaces. `assign_next` picks one itself. -/
def Op.replaces : Op → String → Prop
  | .update taskId _ _, id => id = taskId
  | .archive taskId _, id => id = taskId
  | .unarchive taskId, id => id = taskId
  | .claim taskId _ _, id => id = taskId
  | .release taskId, id => id = taskId
  | .assignNext _ _, _ => True
  | _, _ => False

/-- The call passes `strict_single_in_progress=True`, where it may. -/
def Op.strict : Op → Bool
  | .update _ _ strict => strict
  | .claim _ _ flags => flags.strictSingleInProgress
  | .assignNext _ flags => flags.strictSingleInProgress
  | _ => true

def OnlyInProgress (tasks : List TaskListEntry) (taskId : String) : Prop :=
  ∀ t ∈ tasks, t.taskId ≠ taskId → t.status ≠ some .inProgress

theorem onlyInProgress_of_check {tasks : List TaskListEntry}
    {listId taskId : String}
    (h : validateSingleInProgress tasks listId taskId = .ok ()) :
    OnlyInProgress tasks taskId := by
  intro t ht hne hstatus
  unfold validateSingleInProgress at h
  split at h
  · cases h
  · next hnone =>
    rw [List.find?_eq_none] at hnone
    exact hnone t ht (by simp [hne, hstatus])

/-- A task replaced by one with its id, its place in the list and its
tuples. -/
structure Replaces (t u : TaskListEntry) : Prop where
  taskId : u.taskId = t.taskId
  createdAt : u.createdAt = t.createdAt
  blocks : u.blocks = t.blocks
  blockedBy : u.blockedBy = t.blockedBy

/-- The task `create` builds, before its dependencies are written. -/
structure NewTask (env : Env) (t : TaskListEntry) : Prop where
  taskId : t.taskId = env.hex.text
  createdAt : t.createdAt = env.now
  status : t.status = some .pending
  archive : t.archive = none
  blocks : t.blocks = []
  blockedBy : t.blockedBy = []

/-- The edges `create` adds: from the new task to those it blocks, and to
it from those that block it. -/
def overrideEdge (taskId : String) (blocks blockedBy : PyVal)
    (e : String × String) : Prop :=
  (e.1 = taskId ∧ e.2 ∈ coerceStringSequence blocks)
    ∨ (e.2 = taskId ∧ e.1 ∈ coerceStringSequence blockedBy)

def OpenTask (tasks : List TaskListEntry) (taskId : String) : Prop :=
  ∀ t ∈ tasks, t.taskId = taskId → t.isArchived = false

theorem openTask_of_mutable {tasks : List TaskListEntry} (h : Linked tasks)
    {listId taskId : String} {i : Fin tasks.length} {u : Unit}
    (hi : findTaskIndex tasks listId taskId = .ok i)
    (hopen : assertTaskMutable (tasks.get i) listId = .ok u) :
    OpenTask tasks taskId := by
  intro t ht hid
  have hfound := taskId_of_findTaskIndex hi
  rw [h.unique ht (List.get_mem _ i) (hid.trans hfound.symm)]
  exact isArchived_of_mutable hopen

inductive Writes (s : TaskListSnapshot) (env : Env) :
    Op → TaskListSnapshot → Prop
  | entry {op : Op} {i : Fin s.tasks.length} {u : TaskListEntry}
      {at_ : Datetime} (hname : op.replaces (s.tasks.get i).taskId)
      (hopen : (s.tasks.get i).isArchived = true →
        op = .unarchive (s.tasks.get i).taskId)
      (hu : Replaces (s.tasks.get i) u)
      (hprogress : op.strict = true → u.status = some .inProgress →
        (s.tasks.get i).status = some .inProgress
          ∨ OnlyInProgress s.tasks (s.tasks.get i).taskId) :
      Writes s env op (s.replace (s.tasks.set i u) at_)
  | created {subject description activeForm owner blocks blockedBy
        metadata : PyVal} {t : TaskListEntry} (ht : NewTask env t)
      (hplain : blocks.truthy = false ∧ blockedBy.truthy = false) :
      Writes s env (.create subject description activeForm owner blocks
          blockedBy metadata)
        (s.replace (s.tasks ++ [t]) env.now)
  | linked {subject description activeForm owner blocks blockedBy
        metadata : PyVal} {t : TaskListEntry} {edges : Edges}
      (ht : NewTask env t) (hdag : Dag (taskIds (s.tasks ++ [t])) edges)
      (hedges : ∀ e, e ∈ edges ↔
        e ∈ normalizedDependencyGraph (s.tasks ++ [t])
          ∨ overrideEdge env.hex.text blocks blockedBy e)
      (hopen : ∀ id, id ∈ coerceStringSequence blocks
        ∨ id ∈ coerceStringSequence blockedBy →
        OpenTask (s.tasks ++ [t]) id) :
      Writes s env (.create subject description activeForm owner blocks
          blockedBy metadata)
        (s.replace (tasksFromGraph (s.tasks ++ [t]) edges env.now).1
          env.now)
  | deleted {taskId : String} :
      Writes s env (.delete taskId)
        (s.replace (tasksFromGraph
          (s.tasks.filter fun t => t.taskId ≠ taskId)
          (normalizedDependencyGraph
            (s.tasks.filter fun t => t.taskId ≠ taskId)) env.now).1 env.now)
  | added {blocker blocked : String}
      (hblocker : OpenTask s.tasks blocker)
      (hblocked : OpenTask s.tasks blocked)
      (hdag : Dag (taskIds s.tasks)
        (insertEdge (normalizedDependencyGraph s.tasks) (blocker, blocked))) :
      Writes s env (.addDependency blocker blocked)
        (s.replace (tasksFromGraph s.tasks
          (insertEdge (normalizedDependencyGraph s.tasks)
            (blocker, blocked)) env.now).1 env.now)
  | removed {blocker blocked : String}
      (hblocker : OpenTask s.tasks blocker)
      (hblocked : OpenTask s.tasks blocked) :
      Writes s env (.removeDependency blocker blocked)
        (s.replace (tasksFromGraph s.tasks
          ((normalizedDependencyGraph s.tasks).erase (blocker, blocked))
          env.now).1 env.now)

-- ======= the inversion

section Inversion

variable {s : TaskListSnapshot} {env : Env} {r : Result}
  {s' : TaskListSnapshot}

variable {listId taskId : String} {tasks : List TaskListEntry}
  {written : List TaskListEntry × Bool}

theorem addOverride_eq (h : Linked tasks) {other blocker blocked : String}
    {edges edges' : Edges}
    (hr : addOverride tasks listId other blocker blocked edges = .ok edges') :
    edges' = insertEdge edges (blocker, blocked) ∧ OpenTask tasks other := by
  unfold addOverride at hr
  obtain ⟨i, hi, hr⟩ := bind_eq_ok.1 hr
  obtain ⟨_, hopen, hr⟩ := bind_eq_ok.1 hr
  obtain ⟨-, -, hr⟩ := bind_eq_ok.1 hr
  cases hr
  exact ⟨rfl, openTask_of_mutable h hi hopen⟩

theorem mem_foldlM_addOverride (h : Linked tasks)
    {edge : String → String × String} {others : List String}
    {edges edges' : Edges}
    (hr : others.foldlM (fun edges other => addOverride tasks listId other
      (edge other).1 (edge other).2 edges) edges = .ok edges') :
    (∀ e, e ∈ edges' ↔ e ∈ edges ∨ ∃ other ∈ others, e = edge other)
      ∧ ∀ other ∈ others, OpenTask tasks other := by
  induction others generalizing edges with
  | nil =>
    cases hr
    refine ⟨fun e => by simp, ?_⟩
    intro other hother
    cases hother
  | cons other others ih =>
    rw [List.foldlM_cons] at hr
    obtain ⟨next, hnext, hr⟩ := bind_eq_ok.1 hr
    obtain ⟨hedges, hopen⟩ := ih hr
    obtain ⟨heq, hother⟩ := addOverride_eq h hnext
    refine ⟨fun e => ?_, List.forall_mem_cons.2 ⟨hother, hopen⟩⟩
    have hinsert : e ∈ insertEdge edges (edge other)
        ↔ e ∈ edges ∨ e = edge other := by
      have h : Edge (insertEdge edges ((edge other).1, (edge other).2))
          e.1 e.2 ↔ Edge edges e.1 e.2
            ∨ (e.1 = (edge other).1 ∧ e.2 = (edge other).2) :=
        edge_insertEdge
      unfold Edge at h
      simpa [Prod.ext_iff] using h
    rw [hedges, heq, hinsert]
    simp only [List.mem_cons, exists_eq_or_imp, or_assoc]

theorem overrides_writes (h : Linked tasks) {blocks blockedBy : PyVal}
    {at_ : Datetime}
    (hr : applyDependencyOverrides tasks listId taskId blocks blockedBy at_
      = .ok written) :
    ∃ edges, written = tasksFromGraph tasks edges at_
      ∧ Dag (taskIds tasks) edges
      ∧ (∀ e, e ∈ edges ↔ e ∈ normalizedDependencyGraph tasks
        ∨ overrideEdge taskId blocks blockedBy e)
      ∧ ∀ id, id ∈ coerceStringSequence blocks
        ∨ id ∈ coerceStringSequence blockedBy → OpenTask tasks id := by
  obtain ⟨edges, edges', hedges, hedges', hboth, hwritten⟩ :=
    overrides_spec h hr
  have hblocks : (∀ e, e ∈ edges ↔ e ∈ normalizedDependencyGraph tasks
        ∨ ∃ other ∈ coerceStringSequence blocks, e = (taskId, other))
      ∧ ∀ other ∈ coerceStringSequence blocks, OpenTask tasks other :=
    mem_foldlM_addOverride h hedges
  have hblockedBy : (∀ e, e ∈ edges' ↔ e ∈ edges
        ∨ ∃ other ∈ coerceStringSequence blockedBy, e = (other, taskId))
      ∧ ∀ other ∈ coerceStringSequence blockedBy, OpenTask tasks other :=
    mem_foldlM_addOverride h hedges'
  refine ⟨edges', hwritten, hboth, fun e => ?_, fun id hid =>
    hid.elim (hblocks.2 id) (hblockedBy.2 id)⟩
  rw [hblockedBy.1, hblocks.1, or_assoc]
  refine or_congr Iff.rfl (or_congr ?_ ?_)
  · refine ⟨fun hex => ?_, fun hown => ⟨e.2, hown.2, ?_⟩⟩
    · obtain ⟨other, hother, rfl⟩ := hex
      exact ⟨rfl, hother⟩
    · rw [← hown.1]
  · refine ⟨fun hex => ?_, fun hown => ⟨e.1, hown.2, ?_⟩⟩
    · obtain ⟨other, hother, rfl⟩ := hex
      exact ⟨rfl, hother⟩
    · rw [← hown.1]

theorem add_spec (h : Linked tasks) {blocker blocked : String}
    {at_ : Datetime}
    (hr : mutateDependencyGraph tasks listId blocker blocked false at_
      = .ok written) :
    (OpenTask tasks blocker ∧ OpenTask tasks blocked)
      ∧ Dag (taskIds tasks)
        (insertEdge (normalizedDependencyGraph tasks) (blocker, blocked))
      ∧ written = tasksFromGraph tasks
        (insertEdge (normalizedDependencyGraph tasks) (blocker, blocked))
        at_ := by
  obtain ⟨-, -, hblocker, hblocked⟩ := mutate_spec h hr
  unfold mutateDependencyGraph at hr
  obtain ⟨_, hi, hr⟩ := bind_eq_ok.1 hr
  obtain ⟨_, hj, hr⟩ := bind_eq_ok.1 hr
  obtain ⟨_, hopen, hr⟩ := bind_eq_ok.1 hr
  obtain ⟨_, hopen', hr⟩ := bind_eq_ok.1 hr
  obtain ⟨_, -, hr⟩ := bind_eq_ok.1 hr
  obtain ⟨_, hguard, hr⟩ := bind_eq_ok.1 hr
  cases hr
  have hdag := dag_normalized h (fun _ ht => ht)
  refine ⟨⟨openTask_of_mutable h hi hopen,
    openTask_of_mutable h hj hopen'⟩, ?_, rfl⟩
  by_cases hmem : (blocker, blocked) ∈ normalizedDependencyGraph tasks
  · exact hdag.insert_of_mem hmem
  · have hpath := raiseIf_eq_ok.1 hguard
    exact hdag.insert hblocker hblocked fun hp => hpath ⟨hmem, hp⟩

theorem remove_spec (h : Linked tasks) {blocker blocked : String}
    {at_ : Datetime}
    (hr : mutateDependencyGraph tasks listId blocker blocked true at_
      = .ok written) :
    (OpenTask tasks blocker ∧ OpenTask tasks blocked)
      ∧ written = tasksFromGraph tasks
        ((normalizedDependencyGraph tasks).erase (blocker, blocked)) at_ := by
  unfold mutateDependencyGraph at hr
  obtain ⟨_, hi, hr⟩ := bind_eq_ok.1 hr
  obtain ⟨_, hj, hr⟩ := bind_eq_ok.1 hr
  obtain ⟨_, hopen, hr⟩ := bind_eq_ok.1 hr
  obtain ⟨_, hopen', hr⟩ := bind_eq_ok.1 hr
  obtain ⟨_, -, hr⟩ := bind_eq_ok.1 hr
  cases hr
  exact ⟨⟨openTask_of_mutable h hi hopen,
    openTask_of_mutable h hj hopen'⟩, rfl⟩

theorem create_writes (h : Linked s.tasks)
    (hfresh : env.hex.text ∉ taskIds s.tasks)
    {subject description activeForm owner blocks blockedBy metadata : PyVal}
    (hr : create s env subject description activeForm owner blocks blockedBy
      metadata = .ok (r, some s')) :
    Writes s env (.create subject description activeForm owner blocks
      blockedBy metadata) s' := by
  unfold create at hr
  obtain ⟨_, -, hr⟩ := bind_eq_ok.1 hr
  extract_lets task tasks at hr
  have hnew : NewTask env task := ⟨rfl, rfl, rfl, rfl, rfl, rfl⟩
  have hlinked : Linked tasks := h.concat hfresh rfl rfl
  split at hr
  · obtain ⟨⟨tasks', changed⟩, hover, hr⟩ := bind_eq_ok.1 hr
    cases hr
    obtain ⟨edges, hwritten, hdag, hedges, hopen⟩ :=
      overrides_writes hlinked hover
    have htasks : tasks' = (tasksFromGraph tasks edges env.now).1 :=
      congrArg Prod.fst hwritten
    subst htasks
    exact .linked hnew hdag hedges hopen
  · next hplain =>
    cases hr
    rw [Bool.or_eq_true, not_or, Bool.not_eq_true, Bool.not_eq_true] at hplain
    exact .created hnew hplain

theorem absurd_archived {t : TaskListEntry} {p : Prop}
    (h : t.isArchived = false) (harchived : t.isArchived = true) : p :=
  absurd (h.symm.trans harchived) Bool.false_ne_true

theorem update_writes {patch : Patch} {strict : Bool}
    (hr : update s env taskId patch strict = .ok (r, some s')) :
    Writes s env (.update taskId patch strict) s' := by
  unfold update at hr
  obtain ⟨_, -, hr⟩ := bind_eq_ok.1 hr
  obtain ⟨i, hi, hr⟩ := bind_eq_ok.1 hr
  obtain ⟨_, hopen, hr⟩ := bind_eq_ok.1 hr
  obtain ⟨u, hu, hr⟩ := bind_eq_ok.1 hr
  obtain ⟨_, hcheck, hr⟩ := bind_eq_ok.1 hr
  cases hr
  have hid := taskId_of_findTaskIndex hi
  unfold applyPatch at hu
  obtain ⟨_, -, hu⟩ := bind_eq_ok.1 hu
  obtain ⟨_, -, hu⟩ := bind_eq_ok.1 hu
  obtain ⟨subject, -, hu⟩ := bind_eq_ok.1 hu
  obtain ⟨status, -, hu⟩ := bind_eq_ok.1 hu
  cases hu
  refine .entry hid (absurd_archived (isArchived_of_mutable hopen))
    ⟨rfl, rfl, rfl, rfl⟩ ?_
  intro hstrict hprogress
  unfold checkSingleInProgress at hcheck
  rw [if_pos ⟨hstrict, hprogress⟩] at hcheck
  rw [hid]
  exact Or.inr (onlyInProgress_of_check hcheck)

theorem archive_writes {archivedBy : PyVal}
    (hr : archive s env taskId archivedBy = .ok (r, some s')) :
    Writes s env (.archive taskId archivedBy) s' := by
  unfold archive at hr
  obtain ⟨i, hi, hr⟩ := bind_eq_ok.1 hr
  obtain ⟨_, hopen, hr⟩ := bind_eq_ok.1 hr
  split at hr
  · obtain ⟨_, -, hr⟩ := bind_eq_ok.1 hr
    cases hr
  · cases hr
    exact .entry (taskId_of_findTaskIndex hi)
      (fun harchived => absurd harchived (raiseIf_eq_ok.1 hopen))
      ⟨rfl, rfl, rfl, rfl⟩ fun _ hprogress => Or.inl hprogress

theorem unarchive_writes (hr : unarchive s env taskId = .ok (r, some s')) :
    Writes s env (.unarchive taskId) s' := by
  unfold unarchive at hr
  obtain ⟨i, hi, hr⟩ := bind_eq_ok.1 hr
  obtain ⟨_, -, hr⟩ := bind_eq_ok.1 hr
  cases hr
  have hid := taskId_of_findTaskIndex hi
  exact .entry hid (fun _ => congrArg Op.unarchive hid.symm)
    ⟨rfl, rfl, rfl, rfl⟩ fun _ hprogress => Or.inl hprogress

theorem delete_writes (hr : delete s env taskId = .ok (r, some s')) :
    Writes s env (.delete taskId) s' := by
  unfold delete at hr
  obtain ⟨i, -, hr⟩ := bind_eq_ok.1 hr
  obtain ⟨_, -, hr⟩ := bind_eq_ok.1 hr
  obtain ⟨_, -, hr⟩ := bind_eq_ok.1 hr
  cases hr
  exact .deleted

theorem claimTask_writes {owner : PyVal} {flags : ClaimFlags} {now : Datetime}
    {c : TaskChange}
    (hr : claimTask s.tasks listId taskId owner flags now = .ok c)
    (hc : c.changed = true) :
    ∃ i : Fin s.tasks.length, c.tasks = s.tasks.set i c.task
      ∧ (s.tasks.get i).taskId = taskId
      ∧ (s.tasks.get i).isArchived = false
      ∧ Replaces (s.tasks.get i) c.task
      ∧ (flags.strictSingleInProgress = true →
        c.task.status = some .inProgress →
        OnlyInProgress s.tasks (s.tasks.get i).taskId) := by
  unfold claimTask at hr
  obtain ⟨o, -, hr⟩ := bind_eq_ok.1 hr
  obtain ⟨i, hi, hr⟩ := bind_eq_ok.1 hr
  obtain ⟨_, hopen, hr⟩ := bind_eq_ok.1 hr
  obtain ⟨_, -, hr⟩ := bind_eq_ok.1 hr
  have hid := taskId_of_findTaskIndex hi
  have hmut := isArchived_of_mutable hopen
  have hsingle : ∀ desired, checkSingleInProgress
        flags.strictSingleInProgress s.tasks listId taskId desired = .ok () →
      flags.strictSingleInProgress = true → desired = some .inProgress →
      OnlyInProgress s.tasks (s.tasks.get i).taskId := by
    intro desired hcheck hstrict hprogress
    unfold checkSingleInProgress at hcheck
    rw [if_pos ⟨hstrict, hprogress⟩] at hcheck
    rw [hid]
    exact onlyInProgress_of_check hcheck
  dsimp only at hr
  split at hr
  · split at hr
    · cases hr
      cases hc
    · obtain ⟨_, -, hr⟩ := bind_eq_ok.1 hr
      obtain ⟨_, hcheck, hr⟩ := bind_eq_ok.1 hr
      cases hr
      exact ⟨i, rfl, hid, hmut, ⟨rfl, rfl, rfl, rfl⟩, hsingle _ hcheck⟩
  · obtain ⟨_, -, hr⟩ := bind_eq_ok.1 hr
    obtain ⟨_, -, hr⟩ := bind_eq_ok.1 hr
    obtain ⟨_, -, hr⟩ := bind_eq_ok.1 hr
    obtain ⟨_, hcheck, hr⟩ := bind_eq_ok.1 hr
    cases hr
    exact ⟨i, rfl, hid, hmut, ⟨rfl, rfl, rfl, rfl⟩, hsingle _ hcheck⟩

theorem saveClaim_writes {op : Op} {owner : PyVal} {flags : ClaimFlags}
    {c : TaskChange}
    (hr : claimTask s.tasks s.listId taskId owner flags env.now = .ok c)
    (hname : op.replaces taskId)
    (hstrict : op.strict = flags.strictSingleInProgress)
    (hs : saveChange s c = some s') : Writes s env op s' := by
  unfold saveChange at hs
  split at hs
  · next hchanged =>
    cases hs
    obtain ⟨i, htasks, hid, hmut, hu, hsingle⟩ :=
      claimTask_writes hr hchanged
    rw [htasks]
    refine .entry (hid ▸ hname) (absurd_archived hmut) hu ?_
    intro hasked hprogress
    exact Or.inr (hsingle (hstrict ▸ hasked) hprogress)
  · cases hs

theorem release_writes (hr : release s env taskId = .ok (r, some s')) :
    Writes s env (.release taskId) s' := by
  unfold release at hr
  obtain ⟨_, -, hr⟩ := bind_eq_ok.1 hr
  obtain ⟨_, -, hr⟩ := bind_eq_ok.1 hr
  obtain ⟨c, hc, hr⟩ := bind_eq_ok.1 hr
  obtain ⟨-, hs⟩ := Prod.mk.inj (Except.ok.inj hr)
  unfold saveChange at hs
  split at hs
  · next hchanged =>
    cases hs
    unfold releaseTask at hc
    obtain ⟨i, hi, hc⟩ := bind_eq_ok.1 hc
    obtain ⟨_, hopen, hc⟩ := bind_eq_ok.1 hc
    dsimp only at hc
    split at hc
    · cases hc
      cases hchanged
    · cases hc
      refine .entry (taskId_of_findTaskIndex hi)
        (absurd_archived (isArchived_of_mutable hopen))
        ⟨rfl, rfl, rfl, rfl⟩ ?_
      intro _ hprogress
      -- a release leaves a completed task completed, and any other pending
      have hreleased : releasedStatus (s.tasks.get i).status
          = some .inProgress := hprogress
      unfold releasedStatus at hreleased
      split at hreleased
      · exact Or.inl hreleased
      · cases hreleased
  · cases hs

theorem apply_writes (h : Linked s.tasks) {op : Op}
    (hfresh : op.isCreate = true → env.hex.text ∉ taskIds s.tasks)
    (hr : apply s env op = .ok (r, some s')) : Writes s env op s' := by
  cases op with
  | create => exact create_writes h (hfresh rfl) hr
  | update => exact update_writes hr
  | archive => exact archive_writes hr
  | unarchive => exact unarchive_writes hr
  | delete => exact delete_writes hr
  | claim taskId owner flags =>
    unfold apply claim at hr
    obtain ⟨_, -, hr⟩ := bind_eq_ok.1 hr
    obtain ⟨_, -, hr⟩ := bind_eq_ok.1 hr
    obtain ⟨c, hc, hr⟩ := bind_eq_ok.1 hr
    obtain ⟨-, hs⟩ := Prod.mk.inj (Except.ok.inj hr)
    exact saveClaim_writes hc rfl rfl hs
  | release => exact release_writes hr
  | assignNext owner flags =>
    unfold apply assignNext at hr
    obtain ⟨o, -, hr⟩ := bind_eq_ok.1 hr
    split at hr
    · cases hr
    · obtain ⟨c, hc, hr⟩ := bind_eq_ok.1 hr
      obtain ⟨-, hs⟩ := Prod.mk.inj (Except.ok.inj hr)
      exact saveClaim_writes hc trivial rfl hs
  | addDependency blocker blocked =>
    unfold apply changeDependency at hr
    obtain ⟨⟨tasks', changed⟩, hc, hr⟩ := bind_eq_ok.1 hr
    obtain ⟨-, hs⟩ := Prod.mk.inj (Except.ok.inj hr)
    split at hs
    · cases hs
      obtain ⟨hopen, hdag, hwritten⟩ := add_spec h hc
      cases hwritten
      exact .added hopen.1 hopen.2 hdag
    · cases hs
  | removeDependency blocker blocked =>
    unfold apply changeDependency at hr
    obtain ⟨⟨tasks', changed⟩, hc, hr⟩ := bind_eq_ok.1 hr
    obtain ⟨-, hs⟩ := Prod.mk.inj (Except.ok.inj hr)
    split at hs
    · cases hs
      obtain ⟨hopen, hwritten⟩ := remove_spec h hc
      cases hwritten
      exact .removed hopen.1 hopen.2
    · cases hs
  | _ => cases hr

end Inversion

-- =========== the calls

structure StoresWrite (st : Dict String TaskListSnapshot) (env : Env)
    (listId : String) (op : Op) (s' : TaskListSnapshot)
    (st' : Dict String TaskListSnapshot) : Prop where
  linked : Linked (loadInMemory st env listId).tasks
  fresh : op.isCreate = true →
    env.hex.text ∉ taskIds (loadInMemory st env listId).tasks
  accepted : ∃ r, apply (loadInMemory st env listId) env op
    = .ok (r, some s')
  writes : Writes (loadInMemory st env listId) env op s'
  stored : st' = st.insert s'.listId s'

variable {st : Dict String TaskListSnapshot}

theorem step_stores {st' : Dict String TaskListSnapshot} {env : Env}
    {request : Request} (h : Sound st)
    (hstep : (service inMemoryTaskListStore).step st (env, request)
      = some st') :
    (st' = st ∧ ∀ listId op, request = .onList listId op →
        ∀ r s', apply (loadInMemory st env listId) env op
          ≠ .ok (r, some s'))
      ∨ ∃ listId op s', request = .onList listId op
        ∧ StoresWrite st env listId op s' st' := by
  unfold service at hstep
  dsimp only at hstep
  split at hstep
  · next hfresh =>
    cases hstep
    cases request with
    | listSnapshots => exact Or.inl ⟨rfl, fun _ _ heq => by cases heq⟩
    | onList listId op =>
      unfold stateAfter
      rw [call_inMemory]
      cases happly : apply (loadInMemory st env listId) env op with
      | error e =>
        refine Or.inl ⟨rfl, ?_⟩
        intro _ _ heq r s' hok
        cases heq
        rw [happly] at hok
        cases hok
      | ok outcome =>
        obtain ⟨r, next⟩ := outcome
        cases next with
        | none =>
          refine Or.inl ⟨rfl, ?_⟩
          intro _ _ heq r s' hok
          cases heq
          rw [happly] at hok
          cases hok
        | some s' =>
          obtain ⟨-, hwf⟩ := h.load env listId
          have hids := fresh_loadInMemory hfresh
          exact Or.inr ⟨listId, op, s', rfl, hwf.toLinked, hids,
            ⟨r, happly⟩, apply_writes hwf.toLinked hids happly, rfl⟩
  · cases hstep

/-- What every loaded list satisfies and every write keeps, every stored
list satisfies. -/
theorem StoresWrite.forall_stored {P : TaskListSnapshot → Prop}
    {st' : Dict String TaskListSnapshot} {env : Env} {listId : String}
    {op : Op} {s' : TaskListSnapshot}
    (hs : StoresWrite st env listId op s' st')
    (h : ∀ id s, st.get? id = some s → P s) (hnew : P s') :
    ∀ id s, st'.get? id = some s → P s := by
  intro id s hget
  rw [hs.stored, Dict.get?_insert] at hget
  split at hget
  · cases hget
    exact hnew
  · exact h id s hget

theorem forall_load {P : List TaskListEntry → Prop}
    (h : ∀ id s, st.get? id = some s → P s.tasks) (hnil : P []) (env : Env)
    (listId : String) : P (loadInMemory st env listId).tasks := by
  cases hget : st.get? listId with
  | some s =>
    rw [loadInMemory_stored hget]
    exact h listId s hget
  | none =>
    rw [loadInMemory_absent hget]
    exact hnil

end WeaveRuntime.TaskLists
