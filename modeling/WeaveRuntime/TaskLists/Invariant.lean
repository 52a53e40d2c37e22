/-
What the task lists of the service satisfy at every moment.

`Saves` says once what an operation that saves can do: the new list is
linked, and every task in it is, but for its tuples and its update time,
an old task, an old task after one edit (`Edit`), or the new one
(`IsNew`). There is one lemma per operation, over two general ones for
the operations that replace one task (`saves_of_set`) and those that
write tuples from a graph (`saves_of_graph`).

The representation invariant (`WellFormed`) and the fields the stores
depend on are both read off `Saves`.
-/
import WeaveRuntime.TaskLists.Service

namespace WeaveRuntime.TaskLists

open Lib
open Lib.Graph
open Python

-- =============== edits

/-- One task changed by an operation, its id and tuples kept. -/
inductive Edit (now : Datetime) : Op → TaskListEntry → TaskListEntry → Prop
  | patch {t : TaskListEntry} {taskId : String} {patch : Patch}
      {strict : Bool} {subject : String} {status : Option TaskListStatus}
      (hid : t.taskId = taskId) (hopen : t.isArchived = false)
      (hfields : unsupportedFields patch = [])
      (hsubject : patchedSubject t patch = .ok subject)
      (hstatus : patchedStatus t patch = .ok status) :
      Edit now (.update taskId patch strict) t
        { t with
          subject
          description := patchedText patch "description" t.description
          activeForm := patchedText patch "active_form" t.activeForm
          status
          metadata := patchedMetadata t patch
          updatedAt := now }
  | archive {op : Op} {t : TaskListEntry} (archivedBy : PyVal)
      (hdone : t.status = some .completed) :
      Edit now op t
        { t with
          archive := some ⟨some now, coerceOptionalString archivedBy⟩
          updatedAt := now }
  | unarchive {op : Op} {t : TaskListEntry} :
      Edit now op t { t with archive := none, updatedAt := now }
  | assign {op : Op} {t : TaskListEntry} {owner : Option String}
      {status : Option TaskListStatus} (hopen : t.isArchived = false)
      (howner : owner = t.owner ∨ owner = none ∨
        ∃ v : PyVal, owner = coerceOptionalString v)
      (hstatus : status = t.status ∨ status ≠ none) :
      Edit now op t { t with owner, status, updatedAt := now }

/-- A task as `create` builds it. -/
structure IsNew (env : Env) (t : TaskListEntry) : Prop where
  taskId : t.taskId = env.hex.text
  status : t.status = some .pending
  archive : t.archive = none
  description : ∃ v, t.description = coerceOptionalString v
  activeForm : ∃ v, t.activeForm = coerceOptionalString v
  owner : ∃ v, t.owner = coerceOptionalString v

variable {env : Env} {listId : String} {now : Datetime} {op : Op}
  {s : TaskListSnapshot} {st : Dict String TaskListSnapshot}
  {t u : TaskListEntry}

theorem Edit.taskId (h : Edit now op t u) : u.taskId = t.taskId := by
  cases h <;> rfl

theorem Edit.blocks (h : Edit now op t u) : u.blocks = t.blocks := by
  cases h <;> rfl

theorem Edit.blockedBy (h : Edit now op t u) : u.blockedBy = t.blockedBy := by
  cases h <;> rfl

-- ==== what a save can do

/-- Where a task of the new list comes from, but for its tuples and its
update time. -/
inductive Source (s : TaskListSnapshot) (env : Env) (op : Op) :
    TaskListEntry → Prop
  | old {t : TaskListEntry} (h : t ∈ s.tasks) : Source s env op t
  | edit {t u : TaskListEntry} (h : t ∈ s.tasks) (hedit : Edit env.now op t u) :
      Source s env op u
  | new {t : TaskListEntry} (h : IsNew env t) (m : PyVal)
      (hop : ∃ a b c d e f, op = .create a b c d e f m)
      (hmeta : t.metadata = SortedMap.build (coerceMapping m)) :
      Source s env op t

/-- A task of the new list: its source, with its tuples written again. -/
def Evolved (s : TaskListSnapshot) (env : Env) (op : Op)
    (t' : TaskListEntry) : Prop :=
  ∃ u, Source s env op u ∧ ∃ blocks blockedBy updatedAt,
    t' = { u with blocks, blockedBy, updatedAt }

/-- What an operation that saves can do. -/
structure Saves (s : TaskListSnapshot) (env : Env) (op : Op)
    (s' : TaskListSnapshot) : Prop where
  listId : s'.listId = s.listId
  linked : Linked s'.tasks
  entries : ∀ t' ∈ s'.tasks, Evolved s env op t'

theorem Source.evolved (h : Source s env op t) : Evolved s env op t :=
  ⟨t, h, t.blocks, t.blockedBy, t.updatedAt, rfl⟩

theorem Linked.set {tasks : List TaskListEntry} (h : Linked tasks)
    (i : Fin tasks.length) (hid : u.taskId = (tasks.get i).taskId)
    (hb : u.blocks = (tasks.get i).blocks)
    (hbb : u.blockedBy = (tasks.get i).blockedBy) :
    Linked (tasks.set i u) := by
  refine h.of_links ?_ ?_
  · have hids : taskIds (tasks.set i u) = taskIds tasks := by
      unfold taskIds
      apply List.ext_getElem?
      intro n
      rw [List.getElem?_map, List.getElem?_map, List.getElem?_set]
      split
      · next hin =>
        subst hin
        simp [hid]
      · rfl
    rw [hids]
  · intro t' ht'
    rcases List.mem_or_eq_of_mem_set ht' with ht' | rfl
    · exact ⟨t', ht', rfl, rfl, rfl⟩
    · exact ⟨tasks.get i, List.get_mem _ _, hid, hb, hbb⟩

theorem saves_of_set (h : Linked s.tasks) {i : Fin s.tasks.length}
    (hedit : Edit env.now op (s.tasks.get i) u) (at_ : Datetime) :
    Saves s env op (s.replace (s.tasks.set i u) at_) := by
  have hperm := s.perm_replace (s.tasks.set i u) at_
  refine ⟨rfl, ?_, ?_⟩
  · exact (h.set i hedit.taskId hedit.blocks hedit.blockedBy).perm hperm
  · intro t' ht'
    rcases List.mem_or_eq_of_mem_set (hperm.mem_iff.1 ht') with ht' | rfl
    · exact (Source.old ht').evolved
    · exact (Source.edit (List.get_mem _ _) hedit).evolved

theorem saves_of_graph {tasks : List TaskListEntry} {edges : Edges}
    {at_ : Datetime} (hlinked : Linked (tasksFromGraph tasks edges at_).1)
    (hsource : ∀ t ∈ tasks, Source s env op t) (at' : Datetime) :
    Saves s env op (s.replace (tasksFromGraph tasks edges at_).1 at') := by
  have hperm := s.perm_replace (tasksFromGraph tasks edges at_).1 at'
  refine ⟨rfl, hlinked.perm hperm, ?_⟩
  intro t' ht'
  obtain ⟨t, ht, rfl⟩ := mem_tasksFromGraph (hperm.mem_iff.1 ht')
  exact ⟨t, hsource t ht, relink_eq _ _ _ t⟩

-- ====== the operations

section Operations

variable {s : TaskListSnapshot} {env : Env} {r : Result}
  {s' : TaskListSnapshot}

variable {flags : ClaimFlags} {op : Op} {owner : PyVal} {taskId : String}

section

variable (h : Linked s.tasks)
include h

theorem create_saves (hfresh : env.hex.text ∉ taskIds s.tasks)
    {subject description activeForm blocks blockedBy metadata : PyVal}
    (hr : create s env subject description activeForm owner blocks blockedBy
      metadata = .ok (r, some s')) :
    Saves s env (.create subject description activeForm owner blocks
      blockedBy metadata) s' := by
  unfold create at hr
  obtain ⟨_, -, hr⟩ := bind_eq_ok.1 hr
  extract_lets task tasks at hr
  have hnew : IsNew env task :=
    ⟨rfl, rfl, rfl, ⟨_, rfl⟩, ⟨_, rfl⟩, ⟨_, rfl⟩⟩
  have hlinked : Linked tasks := h.concat hfresh rfl rfl
  have hsource : ∀ t ∈ tasks, Source s env (.create subject description
      activeForm owner blocks blockedBy metadata) t := by
    intro t ht
    rcases List.mem_append.1 ht with ht | ht
    · exact .old ht
    · rw [List.mem_singleton.1 ht]
      exact .new hnew metadata ⟨_, _, _, _, _, _, rfl⟩ rfl
  split at hr
  · obtain ⟨⟨tasks', changed⟩, hover, hr⟩ := bind_eq_ok.1 hr
    cases hr
    obtain ⟨-, edges, -, -, hdag, hedges⟩ := overrides_spec hlinked hover
    have htasks : tasks' = (tasksFromGraph tasks edges env.now).1 :=
      congrArg Prod.fst hedges
    subst htasks
    exact saves_of_graph
      (linked_tasksFromGraph hlinked.nodup hdag env.now) hsource env.now
  · cases hr
    have hperm := s.perm_replace tasks env.now
    refine ⟨rfl, hlinked.perm hperm, ?_⟩
    intro t' ht'
    exact (hsource t' (hperm.mem_iff.1 ht')).evolved

theorem update_saves {patch : Patch} {strict : Bool}
    (hr : update s env taskId patch strict = .ok (r, some s')) :
    Saves s env (.update taskId patch strict) s' := by
  unfold update at hr
  obtain ⟨_, -, hr⟩ := bind_eq_ok.1 hr
  obtain ⟨i, hi, hr⟩ := bind_eq_ok.1 hr
  obtain ⟨_, hopen, hr⟩ := bind_eq_ok.1 hr
  obtain ⟨u, hu, hr⟩ := bind_eq_ok.1 hr
  obtain ⟨_, -, hr⟩ := bind_eq_ok.1 hr
  cases hr
  unfold applyPatch at hu
  obtain ⟨_, hfields, hu⟩ := bind_eq_ok.1 hu
  obtain ⟨_, -, hu⟩ := bind_eq_ok.1 hu
  obtain ⟨subject, hsubject, hu⟩ := bind_eq_ok.1 hu
  obtain ⟨status, hstatus, hu⟩ := bind_eq_ok.1 hu
  cases hu
  exact saves_of_set h (.patch (taskId_of_findTaskIndex hi)
    (isArchived_of_mutable hopen) (not_not.1 (raiseIf_eq_ok.1 hfields))
    hsubject hstatus) _

theorem archive_saves {archivedBy : PyVal}
    (hr : archive s env taskId archivedBy = .ok (r, some s')) :
    Saves s env op s' := by
  unfold archive at hr
  obtain ⟨i, -, hr⟩ := bind_eq_ok.1 hr
  obtain ⟨_, -, hr⟩ := bind_eq_ok.1 hr
  split at hr
  · obtain ⟨_, -, hr⟩ := bind_eq_ok.1 hr
    cases hr
  · next hdone =>
    cases hr
    exact saves_of_set h (.archive archivedBy (not_not.1 hdone)) _

theorem unarchive_saves (hr : unarchive s env taskId = .ok (r, some s')) :
    Saves s env op s' := by
  unfold unarchive at hr
  obtain ⟨i, -, hr⟩ := bind_eq_ok.1 hr
  obtain ⟨_, -, hr⟩ := bind_eq_ok.1 hr
  cases hr
  exact saves_of_set h .unarchive _

/-- What remains after a delete is read as a graph of its own: the edges
to the deleted task are cut. -/
theorem delete_saves (hr : delete s env taskId = .ok (r, some s')) :
    Saves s env op s' := by
  unfold delete at hr
  obtain ⟨i, -, hr⟩ := bind_eq_ok.1 hr
  obtain ⟨_, -, hr⟩ := bind_eq_ok.1 hr
  obtain ⟨_, -, hr⟩ := bind_eq_ok.1 hr
  cases hr
  have hsub : ∀ t ∈ s.tasks.filter fun t => t.taskId ≠ taskId, t ∈ s.tasks :=
    fun t ht => List.mem_of_mem_filter ht
  have hnodup : (taskIds (s.tasks.filter fun t => t.taskId ≠ taskId)).Nodup :=
    h.nodup.sublist (List.filter_sublist.map _)
  refine saves_of_graph ?_ (fun t ht => .old (hsub t ht)) _
  exact linked_tasksFromGraph hnodup (dag_normalized h hsub) _

end

theorem claimTask_change {tasks : List TaskListEntry} {listId : String}
    {now : Datetime} {c : TaskChange}
    (hr : claimTask tasks listId taskId owner flags now = .ok c)
    (hc : c.changed = true) :
    ∃ i : Fin tasks.length, c.tasks = tasks.set i c.task
      ∧ Edit now op (tasks.get i) c.task := by
  unfold claimTask at hr
  obtain ⟨o, ho, hr⟩ := bind_eq_ok.1 hr
  obtain ⟨i, -, hr⟩ := bind_eq_ok.1 hr
  obtain ⟨_, hopen, hr⟩ := bind_eq_ok.1 hr
  obtain ⟨_, -, hr⟩ := bind_eq_ok.1 hr
  have hown := orRaise_eq_ok.1 ho
  have hmut := isArchived_of_mutable hopen
  have hdesired : flags.desiredStatus (tasks.get i).status = (tasks.get i).status
      ∨ flags.desiredStatus (tasks.get i).status ≠ none := by
    unfold ClaimFlags.desiredStatus
    split
    · exact Or.inr (by simp)
    · exact Or.inl rfl
  dsimp only at hr
  split at hr
  · split at hr
    · cases hr
      cases hc
    · obtain ⟨_, -, hr⟩ := bind_eq_ok.1 hr
      obtain ⟨_, -, hr⟩ := bind_eq_ok.1 hr
      cases hr
      exact ⟨i, rfl, .assign hmut (Or.inl rfl) hdesired⟩
  · obtain ⟨_, -, hr⟩ := bind_eq_ok.1 hr
    obtain ⟨_, -, hr⟩ := bind_eq_ok.1 hr
    obtain ⟨_, -, hr⟩ := bind_eq_ok.1 hr
    obtain ⟨_, -, hr⟩ := bind_eq_ok.1 hr
    cases hr
    exact ⟨i, rfl, .assign hmut (Or.inr (Or.inr ⟨owner, hown.symm⟩)) hdesired⟩

theorem releaseTask_change {tasks : List TaskListEntry} {listId : String}
    {now : Datetime} {c : TaskChange}
    (hr : releaseTask tasks listId taskId now = .ok c)
    (hc : c.changed = true) :
    ∃ i : Fin tasks.length, c.tasks = tasks.set i c.task
      ∧ Edit now op (tasks.get i) c.task := by
  unfold releaseTask at hr
  obtain ⟨i, -, hr⟩ := bind_eq_ok.1 hr
  obtain ⟨_, hopen, hr⟩ := bind_eq_ok.1 hr
  have hmut := isArchived_of_mutable hopen
  dsimp only at hr
  split at hr
  · cases hr
    cases hc
  · cases hr
    refine ⟨i, rfl, .assign hmut (Or.inr (Or.inl rfl)) ?_⟩
    unfold releasedStatus
    split
    · exact Or.inl rfl
    · exact Or.inr (by simp)

section

variable (h : Linked s.tasks)
include h

theorem saveChange_saves {c : TaskChange}
    (hc : c.changed = true → ∃ i : Fin s.tasks.length,
      c.tasks = s.tasks.set i c.task ∧ Edit env.now op (s.tasks.get i) c.task)
    (hs : saveChange s c = some s') : Saves s env op s' := by
  unfold saveChange at hs
  split at hs
  · next hchanged =>
    cases hs
    obtain ⟨i, htasks, hedit⟩ := hc hchanged
    rw [htasks]
    exact saves_of_set h hedit _
  · cases hs

theorem claim_saves (hr : claim s env taskId owner flags = .ok (r, some s')) :
    Saves s env op s' := by
  unfold claim at hr
  obtain ⟨i, -, hr⟩ := bind_eq_ok.1 hr
  obtain ⟨_, -, hr⟩ := bind_eq_ok.1 hr
  obtain ⟨c, hc, hr⟩ := bind_eq_ok.1 hr
  obtain ⟨-, hs⟩ := Prod.mk.inj (Except.ok.inj hr)
  exact saveChange_saves h (claimTask_change hc) hs

theorem release_saves (hr : release s env taskId = .ok (r, some s')) :
    Saves s env op s' := by
  unfold release at hr
  obtain ⟨i, -, hr⟩ := bind_eq_ok.1 hr
  obtain ⟨_, -, hr⟩ := bind_eq_ok.1 hr
  obtain ⟨c, hc, hr⟩ := bind_eq_ok.1 hr
  obtain ⟨-, hs⟩ := Prod.mk.inj (Except.ok.inj hr)
  exact saveChange_saves h (releaseTask_change hc) hs

theorem assignNext_saves
    (hr : assignNext s env owner flags = .ok (r, some s')) :
    Saves s env op s' := by
  unfold assignNext at hr
  obtain ⟨o, -, hr⟩ := bind_eq_ok.1 hr
  split at hr
  · cases hr
  · obtain ⟨c, hc, hr⟩ := bind_eq_ok.1 hr
    obtain ⟨-, hs⟩ := Prod.mk.inj (Except.ok.inj hr)
    exact saveChange_saves h (claimTask_change hc) hs

theorem changeDependency_saves {blocker blocked : String} {remove : Bool}
    (hr : changeDependency s env blocker blocked remove
      = .ok (r, some s')) : Saves s env op s' := by
  unfold changeDependency at hr
  obtain ⟨⟨tasks', changed⟩, hc, hr⟩ := bind_eq_ok.1 hr
  obtain ⟨hlinked, ⟨edges, hedges⟩, -⟩ := mutate_spec h hc
  obtain ⟨-, hs⟩ := Prod.mk.inj (Except.ok.inj hr)
  split at hs
  · cases hs
    have htasks : tasks' = (tasksFromGraph s.tasks edges env.now).1 :=
      congrArg Prod.fst hedges
    subst htasks
    exact saves_of_graph hlinked (fun t ht => .old ht) _
  · cases hs

theorem apply_saves
    (hfresh : op.isCreate = true → env.hex.text ∉ taskIds s.tasks)
    (hr : apply s env op = .ok (r, some s')) : Saves s env op s' := by
  cases op with
  | create => exact create_saves h (hfresh rfl) hr
  | update => exact update_saves h hr
  | archive => exact archive_saves h hr
  | unarchive => exact unarchive_saves h hr
  | delete => exact delete_saves h hr
  | claim => exact claim_saves h hr
  | release => exact release_saves h hr
  | assignNext => exact assignNext_saves h hr
  | addDependency => exact changeDependency_saves h hr
  | removeDependency => exact changeDependency_saves h hr
  | _ => cases hr

end

end Operations

-- ======= the invariant

/-- The representation invariant of a task list. -/
structure WellFormed (tasks : List TaskListEntry) : Prop
    extends Linked tasks where
  archivedCompleted : ∀ t ∈ tasks, t.isArchived = true →
    t.status = some .completed

theorem wellFormed_nil : WellFormed [] :=
  ⟨linked_nil, fun t ht => by cases ht⟩

/-- An edit archives completed tasks only, and changes no archived task
but by taking it out of the archive. -/
theorem Edit.archivedCompleted (h : Edit now op t u)
    (harchived : u.isArchived = true) : u.status = some .completed := by
  cases h with
  | patch _ hopen =>
    exact absurd (hopen.symm.trans harchived) Bool.false_ne_true
  | archive _ hdone => exact hdone
  | unarchive => cases harchived
  | assign hopen =>
    exact absurd (hopen.symm.trans harchived) Bool.false_ne_true

theorem Saves.wellFormed {s' : TaskListSnapshot} (hs : Saves s env op s')
    (h : WellFormed s.tasks) : WellFormed s'.tasks := by
  refine ⟨hs.linked, ?_⟩
  intro t' ht' harchived
  obtain ⟨u, hu, blocks, blockedBy, updatedAt, rfl⟩ := hs.entries t' ht'
  cases hu with
  | old ht => exact h.archivedCompleted u ht harchived
  | edit ht hedit => exact hedit.archivedCompleted harchived
  | new hnew =>
    have hnone : u.isArchived = false := by
      unfold TaskListEntry.isArchived
      rw [hnew.archive]
      rfl
    exact absurd (hnone.symm.trans harchived) Bool.false_ne_true

/-- A loaded list: stored under its own id, and well formed. -/
def Sound (st : Dict String TaskListSnapshot) : Prop :=
  ∀ listId s, st.get? listId = some s →
    s.listId = listId ∧ WellFormed s.tasks

def saveInMemory (st : Dict String TaskListSnapshot) :
    Option TaskListSnapshot → Dict String TaskListSnapshot
  | none => st
  | some s => st.insert s.listId s

/-- What a call over the in-memory store loads. -/
def loadInMemory (st : Dict String TaskListSnapshot) (env : Env)
    (listId : String) : TaskListSnapshot :=
  (st.get? listId).getD (.build listId [] env.now)

theorem call_inMemory (st : Dict String TaskListSnapshot) (env : Env)
    (listId : String) (op : Op) :
    call inMemoryTaskListStore st env (.onList listId op)
      = (apply (loadInMemory st env listId) env op).map
        fun outcome => (outcome.1, saveInMemory st outcome.2) := by
  show (apply (loadInMemory st env listId) env op >>= fun outcome =>
    saveIfAny inMemoryTaskListStore st outcome.2 >>= fun st' =>
      .ok (outcome.1, st')) = _
  cases apply (loadInMemory st env listId) env op with
  | error e => rfl
  | ok outcome =>
    obtain ⟨r, next⟩ := outcome
    cases next <;> rfl

theorem loadInMemory_stored (h : st.get? listId = some s) (env : Env) :
    loadInMemory st env listId = s := by
  unfold loadInMemory
  rw [h]
  rfl

theorem loadInMemory_absent (h : st.get? listId = none) (env : Env) :
    loadInMemory st env listId = .build listId [] env.now := by
  unfold loadInMemory
  rw [h]
  rfl

theorem Sound.load (h : Sound st) (env : Env) (listId : String) :
    (loadInMemory st env listId).listId = listId
      ∧ WellFormed (loadInMemory st env listId).tasks := by
  cases hget : st.get? listId with
  | some s =>
    rw [loadInMemory_stored hget]
    exact h listId s hget
  | none =>
    rw [loadInMemory_absent hget]
    exact ⟨rfl, wellFormed_nil⟩

theorem fresh_loadInMemory
    (h : Enabled inMemoryTaskListStore st env (.onList listId op)) :
    op.isCreate = true →
      env.hex.text ∉ taskIds (loadInMemory st env listId).tasks :=
  fun hcreate => h hcreate _ rfl

theorem Sound.save (h : Sound st) {r : Result}
    {next : Option TaskListSnapshot}
    (hfresh : Enabled inMemoryTaskListStore st env (.onList listId op))
    (happly : apply (loadInMemory st env listId) env op
      = .ok (r, next)) : Sound (saveInMemory st next) := by
  cases next with
  | none => exact h
  | some s =>
    obtain ⟨hid, hwf⟩ := h.load env listId
    have hsaves := apply_saves hwf.toLinked (fresh_loadInMemory hfresh) happly
    intro id s₁ hget
    have hget' : (st.insert s.listId s).get? id = some s₁ := hget
    rw [Dict.get?_insert] at hget'
    split at hget'
    · next heq =>
      cases hget'
      exact ⟨heq.symm, hsaves.wellFormed hwf⟩
    · exact h id s₁ hget'

theorem sound_step {st' : Dict String TaskListSnapshot} {c : Env × Request}
    (h : Sound st)
    (hstep : (service inMemoryTaskListStore).step st c = some st') :
    Sound st' := by
  obtain ⟨env, request⟩ := c
  unfold service at hstep
  dsimp only at hstep
  split at hstep
  · next hfresh =>
    cases hstep
    cases request with
    | listSnapshots => exact h
    | onList listId op =>
      unfold stateAfter
      rw [call_inMemory]
      cases happly : apply (loadInMemory st env listId) env op with
      | error e => exact h
      | ok outcome => exact h.save hfresh happly
  · cases hstep

theorem sound_of_reachable
    (hreach : (service inMemoryTaskListStore).Reachable Dict.empty st) :
    Sound st := by
  have hempty : Sound Dict.empty := by
    intro id s hget
    cases hget
  exact System.reachable_invariant
    (fun _ _ _ h hstep => sound_step h hstep) hempty hreach

/-- Every list the service stores is well formed, whatever calls were made
and in whatever order. -/
theorem stored_wellFormed {st : Dict String TaskListSnapshot}
    (hreach : (service inMemoryTaskListStore).Reachable Dict.empty st)
    {listId : String} {s : TaskListSnapshot}
    (hstored : st.get? listId = some s) : WellFormed s.tasks :=
  (sound_of_reachable hreach listId s hstored).2

-- ========= a fixed run

/-- A moment, and an id. -/
def fixedEnv : Env where
  now := ⟨⟨2024, 1, 1, 0, 0, 0, 0⟩, by decide⟩
  hex := ⟨"0123456789abcdef0123456789abcdef", by decide⟩
  spareHex _ := ⟨"fedcba9876543210fedcba9876543210", by decide⟩

def fixedRun : List (Env × Request) :=
  [(fixedEnv, .onList "inbox" (.create (.str " draft ") .none .none .none
      .none .none .none)),
    (fixedEnv, .onList "inbox" (.update fixedEnv.hex.text
      [(.str "status", .str "completed")] false)),
    (fixedEnv, .onList "inbox" (.archive fixedEnv.hex.text (.str "ann")))]

def fixedStore : Dict String TaskListSnapshot :=
  ((service inMemoryTaskListStore).run Dict.empty fixedRun).getD Dict.empty

theorem reachable_fixedStore :
    (service inMemoryTaskListStore).Reachable Dict.empty fixedStore :=
  ⟨fixedRun, rfl⟩

theorem stored_wellFormed_archived : ∃ s,
    fixedStore.get? "inbox" = some s
      ∧ s.tasks.map TaskListEntry.isArchived = [true]
      ∧ WellFormed s.tasks :=
  ⟨_, rfl, rfl, @stored_wellFormed _ reachable_fixedStore "inbox" _ rfl⟩

end WeaveRuntime.TaskLists
