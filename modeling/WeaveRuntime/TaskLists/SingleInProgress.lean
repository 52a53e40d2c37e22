/-
At most one task in progress.

A call made with `strict_single_in_progress=True` refuses to bring a task
to `in_progress` while another one is there. That is a check on three
write paths, and the invariant needs the rest of the writes too: no
operation without the flag brings a task to `in_progress` at all, and
`update`, which checks only where the NEW status is `in_progress`, may
rewrite the task that is already there.

Both kinds of write are one shape (`Confined`): the tasks in progress
afterwards are the same as before, or all of them are the one task the
operation replaced. The ids of a list are distinct, so the shape is
enough.
-/
import WeaveRuntime.TaskLists.Writes

namespace WeaveRuntime.TaskLists

open Lib
open Lib.Graph
open Python

-- =========== the shape

def inProgressTasks (tasks : List TaskListEntry) : List TaskListEntry :=
  tasks.filter fun t => t.status = some .inProgress

theorem mem_inProgressTasks {tasks : List TaskListEntry} {t : TaskListEntry} :
    t ∈ inProgressTasks tasks ↔ t ∈ tasks ∧ t.status = some .inProgress := by
  simp [inProgressTasks]

def SingleInProgress (tasks : List TaskListEntry) : Prop :=
  ∀ t ∈ inProgressTasks tasks, ∀ u ∈ inProgressTasks tasks,
    t.taskId = u.taskId

/-- What a write does to the tasks in progress: each was in progress
before, under its id, or all of them have the id of one task. -/
def Confined (tasks tasks' : List TaskListEntry) : Prop :=
  (∀ t' ∈ inProgressTasks tasks', ∃ t ∈ inProgressTasks tasks,
      t.taskId = t'.taskId)
    ∨ ∃ id, ∀ t' ∈ inProgressTasks tasks', t'.taskId = id

theorem Confined.single {tasks tasks' : List TaskListEntry}
    (hc : Confined tasks tasks') (h : SingleInProgress tasks) :
    SingleInProgress tasks' := by
  intro t' ht' u' hu'
  rcases hc with hold | hone
  · obtain ⟨t, ht, hid⟩ := hold t' ht'
    obtain ⟨u, hu, hid'⟩ := hold u' hu'
    rw [← hid, ← hid', h t ht u hu]
  · obtain ⟨id, hid⟩ := hone
    rw [hid t' ht', hid u' hu']

theorem SingleInProgress.length_le {tasks : List TaskListEntry}
    (h : SingleInProgress tasks) (hnodup : (taskIds tasks).Nodup) :
    (inProgressTasks tasks).length ≤ 1 := by
  have hids : (taskIds (inProgressTasks tasks)).Nodup :=
    hnodup.sublist (List.filter_sublist.map _)
  cases hlist : inProgressTasks tasks with
  | nil => simp
  | cons t rest =>
    cases rest with
    | nil => simp
    | cons u rest =>
      rw [hlist] at hids
      have hne : t.taskId ≠ u.taskId := by
        intro heq
        have hmem : t.taskId ∈ taskIds (u :: rest) := by
          rw [heq]
          exact mem_taskIds List.mem_cons_self
        exact (List.nodup_cons.1 hids).1 hmem
      refine absurd (h t ?_ u ?_) hne
      · rw [hlist]
        exact List.mem_cons_self
      · rw [hlist]
        exact List.mem_cons_of_mem _ List.mem_cons_self

-- ========== the writes

theorem confined_of_graph {s : TaskListSnapshot}
    {tasks : List TaskListEntry} {edges : Edges} {at_ at' : Datetime}
    (hsource : ∀ t ∈ inProgressTasks tasks, t ∈ s.tasks) :
    Confined s.tasks
      (s.replace (tasksFromGraph tasks edges at_).1 at').tasks := by
  refine Or.inl ?_
  intro t' ht'
  obtain ⟨hmem, hprogress⟩ := mem_inProgressTasks.1 ht'
  have hperm := s.perm_replace (tasksFromGraph tasks edges at_).1 at'
  obtain ⟨t, ht, hrelink⟩ := mem_tasksFromGraph (hperm.mem_iff.1 hmem)
  obtain ⟨_, _, _, hsame⟩ := relink_eq (taskIds tasks) edges at_ t
  rw [hrelink] at hsame
  have hid : t.taskId = t'.taskId := by rw [hsame]
  have hstatus : t.status = some .inProgress := by
    rw [← hprogress, hsame]
  refine ⟨t, mem_inProgressTasks.2 ⟨hsource t ?_, hstatus⟩, hid⟩
  exact mem_inProgressTasks.2 ⟨ht, hstatus⟩

theorem Writes.confined {s s' : TaskListSnapshot} {env : Env} {op : Op}
    (hw : Writes s env op s') (hstrict : op.strict = true)
    (h : SingleInProgress s.tasks) : Confined s.tasks s'.tasks := by
  -- a new task is pending
  have hnew : ∀ t : TaskListEntry, NewTask env t →
      ∀ t' ∈ inProgressTasks (s.tasks ++ [t]), t' ∈ s.tasks := by
    intro t ht t' ht'
    obtain ⟨hmem, hprogress⟩ := mem_inProgressTasks.1 ht'
    rcases List.mem_append.1 hmem with hmem | hmem
    · exact hmem
    · rw [List.mem_singleton.1 hmem, ht.status] at hprogress
      cases hprogress
  cases hw with
  | @entry op i u at_ _ _ hu hprogress =>
    have hperm := s.perm_replace (s.tasks.set i u) at_
    have hmem : ∀ t' ∈ inProgressTasks (s.replace (s.tasks.set i u)
        at_).tasks, t' ∈ inProgressTasks s.tasks ∨ t' = u := by
      intro t' ht'
      obtain ⟨hin, hstatus⟩ := mem_inProgressTasks.1 ht'
      rcases List.mem_or_eq_of_mem_set (hperm.mem_iff.1 hin) with hin | rfl
      · exact Or.inl (mem_inProgressTasks.2 ⟨hin, hstatus⟩)
      · exact Or.inr rfl
    by_cases hup : u.status = some .inProgress
    · -- the task replaced is the only one, whether it was there or not
      have hothers : ∀ t ∈ inProgressTasks s.tasks,
          t.taskId = (s.tasks.get i).taskId := by
        intro t ht
        rcases hprogress hstrict hup with hwas | honly
        · exact h t ht _ (mem_inProgressTasks.2
            ⟨List.get_mem _ _, hwas⟩)
        · obtain ⟨hin, hstatus⟩ := mem_inProgressTasks.1 ht
          by_contra hne
          exact honly t hin hne hstatus
      refine Or.inr ⟨(s.tasks.get i).taskId, ?_⟩
      intro t' ht'
      rcases hmem t' ht' with ht' | rfl
      · exact hothers t' ht'
      · exact hu.taskId
    · refine Or.inl ?_
      intro t' ht'
      rcases hmem t' ht' with hold | rfl
      · exact ⟨t', hold, rfl⟩
      · exact absurd (mem_inProgressTasks.1 ht').2 hup
  | @created _ _ _ _ _ _ _ t ht =>
    refine Or.inl ?_
    intro t' ht'
    obtain ⟨hmem, hstatus⟩ := mem_inProgressTasks.1 ht'
    have hin := (s.perm_replace (s.tasks ++ [t]) env.now).mem_iff.1 hmem
    have hold := hnew t ht t' (mem_inProgressTasks.2 ⟨hin, hstatus⟩)
    exact ⟨t', mem_inProgressTasks.2 ⟨hold, hstatus⟩, rfl⟩
  | linked ht => exact confined_of_graph (hnew _ ht)
  | deleted =>
    refine confined_of_graph fun t ht => ?_
    exact List.mem_of_mem_filter (mem_inProgressTasks.1 ht).1
  | added => exact confined_of_graph fun t ht => (mem_inProgressTasks.1 ht).1
  | removed =>
    exact confined_of_graph fun t ht => (mem_inProgressTasks.1 ht).1

-- ============ the runs

/-- A call that asks for the check, where it can. -/
def Request.strict : Request → Bool
  | .onList _ op => op.strict
  | .listSnapshots => true

def Disciplined (st : Dict String TaskListSnapshot) : Prop :=
  ∀ listId s, st.get? listId = some s → SingleInProgress s.tasks

theorem disciplined_step {st st' : Dict String TaskListSnapshot}
    {c : Env × Request} (hsound : Sound st) (h : Disciplined st)
    (hstrict : c.2.strict = true)
    (hstep : (service inMemoryTaskListStore).step st c = some st') :
    Disciplined st' := by
  obtain ⟨env, request⟩ := c
  rcases step_stores hsound hstep with ⟨rfl, -⟩ | hstores
  · exact h
  · obtain ⟨listId, op, s', rfl, hs⟩ := hstores
    have hload : SingleInProgress (loadInMemory st env listId).tasks := by
      refine forall_load h ?_ env listId
      intro t ht
      cases ht
    exact hs.forall_stored h ((hs.writes.confined hstrict hload).single hload)

/-- In every run from no lists at all whose updates, claims and
assignments all ask for the check, every list that is stored at any
moment has at most one task in progress. -/
theorem strict_single_in_progress {calls : List (Env × Request)}
    (hstrict : ∀ c ∈ calls, c.2.strict = true)
    {st : Dict String TaskListSnapshot}
    (hvisits : (service inMemoryTaskListStore).Visits Dict.empty calls st)
    {listId : String} {s : TaskListSnapshot}
    (hstored : st.get? listId = some s) :
    (inProgressTasks s.tasks).length ≤ 1 := by
  have hsound := sound_of_reachable hvisits.reachable
  have hdisc : Disciplined st := by
    refine System.visits_of_takes (I := Sound)
      (G := fun _ c => c.2.strict = true)
      (fun _ _ _ h hstep => sound_step h hstep)
      (fun _ _ _ h hd hstep hs => disciplined_step h hd hs hstep)
      ?_ ?_ ?_ hvisits
    · exact sound_of_reachable (System.Reachable.refl _)
    · intro id s hget
      cases hget
    · intro u c u' htake
      obtain ⟨before, after, hcalls, -, -⟩ := htake
      exact hstrict c (by
        rw [hcalls]
        exact List.mem_append_right _ List.mem_cons_self)
  exact (hdisc listId s hstored).length_le
    (hsound listId s hstored).2.nodup

-- ======== a strict run

/-- A second moment, and a second id. -/
def laterEnv : Env where
  now := ⟨⟨2024, 1, 1, 0, 0, 1, 0⟩, by decide⟩
  hex := ⟨"00000000000000000000000000000001", by decide⟩
  spareHex _ := fixedEnv.hex

/-- Two tasks; the first is claimed, the second cannot be. -/
def strictRun : List (Env × Request) :=
  [(fixedEnv, .onList "inbox" (.create (.str "draft") .none .none .none
      .none .none .none)),
    (laterEnv, .onList "inbox" (.create (.str "review") .none .none .none
      .none .none .none)),
    (laterEnv, .onList "inbox" (.update fixedEnv.hex.text
      [(.str "status", .str "in_progress")] true)),
    (laterEnv, .onList "inbox" (.update laterEnv.hex.text
      [(.str "status", .str "in_progress")] true))]

def strictStore : Dict String TaskListSnapshot :=
  ((service inMemoryTaskListStore).run Dict.empty strictRun).getD Dict.empty

theorem visits_strictStore :
    (service inMemoryTaskListStore).Visits Dict.empty strictRun
      strictStore := by
  have hruns : ((service inMemoryTaskListStore).run Dict.empty
      strictRun).isSome = true := by decide
  obtain ⟨st, hst⟩ := Option.isSome_iff_exists.1 hruns
  refine System.Visits.finish ?_
  unfold strictStore
  rw [hst]
  rfl

theorem strict_single_in_progress_inbox : ∃ s,
    strictStore.get? "inbox" = some s
      ∧ s.tasks.map TaskListEntry.status
        = [some .inProgress, some .pending]
      ∧ (inProgressTasks s.tasks).length ≤ 1 := by
  have hall : ∀ c ∈ strictRun, c.2.strict = true := by
    intro c hc
    simp only [strictRun, List.mem_cons, List.not_mem_nil, or_false] at hc
    rcases hc with rfl | rfl | rfl | rfl <;> rfl
  refine ⟨_, rfl, rfl, ?_⟩
  exact @strict_single_in_progress strictRun hall strictStore
    visits_strictStore "inbox" _ rfl

end WeaveRuntime.TaskLists
