/-
Which entries an operation touches.

A dependency operation writes the tuples of every task of the list. An
entry nobody named stays as it is only where its stored tuples are in
order (`InOrder`): otherwise it is rewritten, with a new update time. So
an order once lost shows at the next dependency operation anywhere in the
list (`not_framed`), and while it is kept every operation has its
`Footprint` (`framed_of_inOrder`).

By the exact run rule that is the whole story: in a run from no lists at
all every operation touches only what it is about, at every moment,
exactly when every `create` that succeeds meets `KeptInOrder`.
-/
import WeaveRuntime.TaskLists.TupleOrder

namespace WeaveRuntime.TaskLists

open Lib
open Lib.Graph
open Python

-- ==== what is not touched

/-- The entries an operation is about: those it names, and for a deletion
those it cuts an edge of. A creation and an assignment are about any. -/
def Op.concerns (tasks : List TaskListEntry) : Op → String → Prop
  | .addDependency blocker blocked, id => id = blocker ∨ id = blocked
  | .removeDependency blocker blocked, id => id = blocker ∨ id = blocked
  | .delete taskId, id => id = taskId ∨ ∃ t ∈ tasks, t.taskId = id
      ∧ (taskId ∈ t.blocks ∨ taskId ∈ t.blockedBy)
  | .create .., _ => True
  | op, id => op.replaces id

/-- What may take an archived task out of a list, or change it there. -/
def Unarchives (op : Op) (t : TaskListEntry) : Prop :=
  op = .unarchive t.taskId ∨ ∃ taskId, op = .delete taskId
    ∧ (taskId = t.taskId ∨ taskId ∈ t.blocks ∨ taskId ∈ t.blockedBy)

/-- What an operation may do to the entries of a list: one it is not about
is there afterwards exactly when it was there before, in every field, and
an archived one changes by being taken out of the archive, or by the
deletion of itself or of a neighbour. -/
structure Footprint (s : TaskListSnapshot) (op : Op)
    (s' : TaskListSnapshot) : Prop where
  touches : ∀ t : TaskListEntry, ¬ op.concerns s.tasks t.taskId →
    (t ∈ s.tasks ↔ t ∈ s'.tasks)
  archived : ∀ t ∈ s.tasks, t.isArchived = true →
    t ∈ s'.tasks ∨ Unarchives op t

/-- Every operation that succeeds on a list has its footprint. -/
def Framed (s : TaskListSnapshot) : Prop :=
  ∀ (env : Env) (op : Op) (r : Result) (s' : TaskListSnapshot),
    (op.isCreate = true → env.hex.text ∉ taskIds s.tasks) →
    apply s env op = .ok (r, some s') → Footprint s op s'

theorem mem_set_iff {tasks : List TaskListEntry} {i : Fin tasks.length}
    {t u : TaskListEntry} (hold : t ≠ tasks.get i) (hnew : t ≠ u) :
    t ∈ tasks.set i u ↔ t ∈ tasks := by
  refine ⟨fun h => ?_, fun h => ?_⟩
  · rcases List.mem_or_eq_of_mem_set h with h | h
    · exact h
    · exact absurd h hnew
  · obtain ⟨j, hj, rfl⟩ := List.getElem_of_mem h
    have hne : i.val ≠ j := by
      intro heq
      subst heq
      exact hold rfl
    have hlen : j < (tasks.set i u).length := by
      rw [List.length_set]
      exact hj
    have hget : (tasks.set i u)[j] = tasks[j] :=
      List.getElem_set_ne hne hlen
    rw [← hget]
    exact List.getElem_mem hlen

variable {s : TaskListSnapshot} {st : Dict String TaskListSnapshot}

theorem footprint_entry (h : Linked s.tasks) {op : Op}
    {i : Fin s.tasks.length} {u : TaskListEntry}
    (hname : op.concerns s.tasks (s.tasks.get i).taskId)
    (hopen : (s.tasks.get i).isArchived = true →
      op = .unarchive (s.tasks.get i).taskId)
    (hu : Replaces (s.tasks.get i) u) (at_ : Datetime) :
    Footprint s op (s.replace (s.tasks.set i u) at_) := by
  have hperm := s.perm_replace (s.tasks.set i u) at_
  have hother : ∀ t : TaskListEntry, t.taskId ≠ (s.tasks.get i).taskId →
      (t ∈ s.tasks ↔ t ∈ (s.replace (s.tasks.set i u) at_).tasks) := by
    intro t hne
    rw [hperm.mem_iff]
    refine (mem_set_iff ?_ ?_).symm
    · intro heq
      exact hne (congrArg _ heq)
    · intro heq
      exact hne (heq ▸ hu.taskId)
  refine ⟨?_, ?_⟩
  · intro t hnot
    refine hother t fun heq => hnot ?_
    rw [heq]
    exact hname
  · intro t ht harchived
    by_cases hid : t.taskId = (s.tasks.get i).taskId
    · have heq := h.unique ht (List.get_mem _ i) hid
      rw [heq] at harchived
      exact Or.inr (Or.inl (by rw [hid]; exact hopen harchived))
    · exact Or.inl ((hother t hid).1 ht)

theorem footprint_change (h : Linked s.tasks) (horder : InOrder s.tasks)
    {op : Op} {blocker blocked : String} {edges : Edges} {at_ at' : Datetime}
    (hop : ∀ id, op.concerns s.tasks id ↔ id = blocker ∨ id = blocked)
    (hblocker : OpenTask s.tasks blocker)
    (hblocked : OpenTask s.tasks blocked) (hedges : edges.Nodup)
    (hsame : ∀ a b, (a, b) ≠ (blocker, blocked) →
      (Edge edges a b ↔ Edge (normalizedDependencyGraph s.tasks) a b)) :
    Footprint s op (s.replace (tasksFromGraph s.tasks edges at_).1 at') := by
  have hother : ∀ t : TaskListEntry, t.taskId ≠ blocker →
      t.taskId ≠ blocked → (t ∈ s.tasks ↔ t ∈ (s.replace
        (tasksFromGraph s.tasks edges at_).1 at').tasks) := by
    intro t hne hne'
    refine (mem_graph_iff fun u hu hid => ?_).symm
    refine relink_same h horder hedges hu ?_ ?_ ?_ at_
    · intro a
      rw [hsame _ _ (fun heq => hne (hid ▸ (Prod.mk.inj heq).1))]
      exact edge_iff_blocks h hu a
    · intro a
      rw [hsame _ _ (fun heq => hne' (hid ▸ (Prod.mk.inj heq).2))]
      exact edge_iff_blockedBy h hu a
    · intro a b hab hmem
      have hids : a ∈ taskIds s.tasks ∧ b ∈ taskIds s.tasks := by
        rcases hmem with ⟨ha, hb⟩ | ⟨ha, hb⟩
        · exact ⟨h.closed u hu a (Or.inl ha), h.closed u hu b (Or.inl hb)⟩
        · exact ⟨h.closed u hu a (Or.inr ha), h.closed u hu b (Or.inr hb)⟩
      exact orderLe_of_earlier s.ordered h.nodup hids.1 hids.2 hab
  refine ⟨?_, ?_⟩
  · intro t hnot
    rw [hop, not_or] at hnot
    exact hother t hnot.1 hnot.2
  · intro t ht harchived
    refine Or.inl ((hother t ?_ ?_).1 ht)
    · intro hid
      exact absurd_archived (hblocker t ht hid) harchived
    · intro hid
      exact absurd_archived (hblocked t ht hid) harchived

theorem footprint_delete (h : Linked s.tasks) (horder : InOrder s.tasks)
    {taskId : String} {at_ at' : Datetime} :
    Footprint s (.delete taskId) (s.replace (tasksFromGraph
      (s.tasks.filter fun t => t.taskId ≠ taskId)
      (normalizedDependencyGraph
        (s.tasks.filter fun t => t.taskId ≠ taskId)) at_).1 at') := by
  have hmem : ∀ t, t ∈ s.tasks.filter (fun t => t.taskId ≠ taskId)
      ↔ t ∈ s.tasks ∧ t.taskId ≠ taskId := by
    intro t
    simp
  have hsub : ∀ t ∈ s.tasks.filter (fun t => t.taskId ≠ taskId),
      t ∈ s.tasks := fun t ht => ((hmem t).1 ht).1
  have hsorted := s.ordered.filter fun t => t.taskId ≠ taskId
  have hnodup : (taskIds (s.tasks.filter fun t => t.taskId ≠ taskId)).Nodup :=
    h.nodup.sublist (List.filter_sublist.map _)
  have hids : ∀ a ∈ taskIds s.tasks, a ≠ taskId →
      a ∈ taskIds (s.tasks.filter fun t => t.taskId ≠ taskId) := by
    intro a ha hne
    obtain ⟨x, hx, rfl⟩ := List.mem_map.1 ha
    exact mem_taskIds ((hmem x).2 ⟨hx, hne⟩)
  -- an entry without an edge to the deleted one is not touched
  have hother : ∀ t : TaskListEntry, t.taskId ≠ taskId →
      (∀ u ∈ s.tasks, u.taskId = t.taskId →
        taskId ∉ u.blocks ∧ taskId ∉ u.blockedBy) →
      (t ∈ s.tasks ↔ t ∈ (s.replace (tasksFromGraph
        (s.tasks.filter fun t => t.taskId ≠ taskId)
        (normalizedDependencyGraph
          (s.tasks.filter fun t => t.taskId ≠ taskId)) at_).1
        at').tasks) := by
    intro t hne hfree
    rw [mem_graph_iff, hmem]
    · exact ⟨fun ht => ⟨ht, hne⟩, And.left⟩
    intro u hu hid
    have hu' := hsub u hu
    obtain ⟨hforward, hback⟩ := hfree u hu' hid
    have hdag := dag_normalized h hsub
    refine relink_same h horder hdag.nodup hu' ?_ ?_ ?_ at_
    · intro a
      refine ⟨fun hedge => ?_, fun ha => ?_⟩
      · obtain ⟨v, hv, hvid, ha⟩ := blocks_of_edge h hsub hedge
        rw [← h.unique (hsub v hv) hu' hvid]
        exact ha
      · have hin := hids a (h.closed u hu' a (Or.inl ha))
          (fun heq => hforward (heq ▸ ha))
        refine edge_normalized.2 ⟨u, hu, mem_namedEdges.2 (Or.inl ?_)⟩
        exact ⟨rfl, ha, hin, fun heq => h.irrefl hu' (heq ▸ ha)⟩
    · intro a
      refine ⟨fun hedge => ?_, fun ha => ?_⟩
      · obtain ⟨v, hv, rfl, ha⟩ := blocks_of_edge h hsub hedge
        exact (h.symmetric v (hsub v hv) u hu').1 ha
      · have hin := hids a (h.closed u hu' a (Or.inr ha))
          (fun heq => hback (heq ▸ ha))
        refine edge_normalized.2 ⟨u, hu, mem_namedEdges.2 (Or.inr ?_)⟩
        refine ⟨rfl, ha, hin, ?_⟩
        intro heq
        rw [heq] at ha
        exact h.irrefl hu' ((h.symmetric u hu' u hu').2 ha)
    · intro a b hab hpair
      have hkept : Earlier (s.tasks.filter fun t => t.taskId ≠ taskId) a b :=
        hab.of_keys fun t' ht' => ⟨t', hsub t' ht', rfl, rfl⟩
      refine orderLe_of_earlier hsorted hnodup ?_ ?_ hkept
      · rcases hpair with ⟨ha, -⟩ | ⟨ha, -⟩
        · exact hids a (h.closed u hu' a (Or.inl ha))
            fun heq => hforward (heq ▸ ha)
        · exact hids a (h.closed u hu' a (Or.inr ha))
            fun heq => hback (heq ▸ ha)
      · rcases hpair with ⟨-, hb⟩ | ⟨-, hb⟩
        · exact hids b (h.closed u hu' b (Or.inl hb))
            fun heq => hforward (heq ▸ hb)
        · exact hids b (h.closed u hu' b (Or.inr hb))
            fun heq => hback (heq ▸ hb)
  refine ⟨?_, ?_⟩
  · intro t hnot
    have hnot' : ¬ (t.taskId = taskId ∨ ∃ u ∈ s.tasks, u.taskId = t.taskId
        ∧ (taskId ∈ u.blocks ∨ taskId ∈ u.blockedBy)) := hnot
    rw [not_or] at hnot'
    refine hother t hnot'.1 fun u hu hid => ?_
    rw [← not_or]
    exact fun hcut => hnot'.2 ⟨u, hu, hid, hcut⟩
  · intro t ht _
    by_cases hcut : Unarchives (.delete taskId) t
    · exact Or.inr hcut
    · refine Or.inl ((hother t ?_ ?_).1 ht)
      · intro hid
        exact hcut (Or.inr ⟨taskId, rfl, Or.inl hid.symm⟩)
      · intro u hu hid
        rw [h.unique hu ht hid, ← not_or]
        exact fun hmem => hcut (Or.inr ⟨taskId, rfl, Or.inr hmem⟩)

-- ==== keeping and losing order

theorem framed_of_inOrder (h : Linked s.tasks) (horder : InOrder s.tasks) :
    Framed s := by
  intro env op r s' hfresh hr
  have hdag := dag_normalized h (fun _ ht => ht)
  cases apply_writes h hfresh hr with
  | @entry op i u at_ hname hopen hu _ =>
    refine footprint_entry h ?_ hopen hu at_
    cases op <;> first | exact hname | cases hname
  | @created _ _ _ _ _ _ _ t ht =>
    refine ⟨fun t hnot => absurd trivial hnot, ?_⟩
    intro u hu _
    have hperm := s.perm_replace (s.tasks ++ [t]) env.now
    exact Or.inl (hperm.mem_iff.2 (List.mem_append_left _ hu))
  | @linked _ _ _ _ blocks blockedBy _ t edges ht hdag' hedges hopen =>
    -- of the archived entries it touches none: it names none
    refine ⟨fun t hnot => absurd trivial hnot, ?_⟩
    intro u hu harchived
    have hnew : t.taskId ∉ taskIds s.tasks := by
      rw [ht.taskId]
      exact hfresh rfl
    rw [← ht.taskId] at hedges
    have hin := List.mem_append_left [t] hu
    refine Or.inl ((mem_graph_iff fun v hv hid => ?_).2 hin)
    have hv' := (h.concat hnew ht.blocks ht.blockedBy).unique hv hin hid
    subst hv'
    refine relink_same h horder hdag'.nodup hu ?_ ?_ ?_ env.now
    · intro a
      rw [edge_created hnew h ht.blocks ht.blockedBy hedges hu]
      refine or_iff_left fun hown => ?_
      exact absurd_archived (hopen _ (Or.inr hown.2) v hin rfl) harchived
    · intro a
      rw [edge_created_back hnew h ht.blocks ht.blockedBy hedges hu]
      refine or_iff_left fun hown => ?_
      exact absurd_archived (hopen _ (Or.inl hown.2) v hin rfl) harchived
    · intro a b hab hpair
      have hids : a ∈ taskIds s.tasks ∧ b ∈ taskIds s.tasks := by
        rcases hpair with ⟨ha, hb⟩ | ⟨ha, hb⟩
        · exact ⟨h.closed v hu a (Or.inl ha), h.closed v hu b (Or.inl hb)⟩
        · exact ⟨h.closed v hu a (Or.inr ha), h.closed v hu b (Or.inr hb)⟩
      exact (orderLe_concat_old hids.1 hids.2).2
        (orderLe_of_earlier s.ordered h.nodup hids.1 hids.2 hab)
  | deleted => exact footprint_delete h horder
  | @added blocker blocked hblocker hblocked hdag' =>
    refine footprint_change h horder (fun _ => Iff.rfl) hblocker
      hblocked hdag'.nodup ?_
    intro a b hne
    rw [edge_insertEdge]
    refine ⟨fun hedge => hedge.resolve_right ?_, Or.inl⟩
    intro heq
    exact hne (Prod.ext heq.1 heq.2)
  | @removed blocker blocked hblocker hblocked =>
    refine footprint_change h horder (fun _ => Iff.rfl) hblocker
      hblocked (hdag.erase _).nodup ?_
    intro a b hne
    unfold Edge
    rw [hdag.nodup.mem_erase_iff]
    exact ⟨And.right, fun hmem => ⟨hne, hmem⟩⟩

/-- A list with a tuple out of order is not framed: to remove a dependency
elsewhere rewrites the task with that tuple. -/
theorem not_framed (h : Linked s.tasks) (env : Env) {x z : TaskListEntry}
    (hx : x ∈ s.tasks) (hz : z ∈ s.tasks) (hopen : z.isArchived = false)
    (hne : x.taskId ≠ z.taskId) (hbad : ¬ (x.blocks.Pairwise (Earlier s.tasks)
      ∧ x.blockedBy.Pairwise (Earlier s.tasks))) : ¬ Framed s := by
  intro hframed
  have hrelink : ∀ edges : Edges, ∀ u : TaskListEntry,
      relink (taskIds s.tasks) edges env.now u ≠ x := by
    intro edges u heq
    refine hbad ?_
    rw [← heq, blocks_relink, blockedBy_relink]
    have hsort : ∀ set : List String,
        (sortedIds (taskIds s.tasks) set).Pairwise (Earlier s.tasks) :=
      fun set => (List.pairwise_insertionSort _ set).imp
        fun hab => earlier_of_orderLe s.ordered h.nodup hab
    exact ⟨hsort _, hsort _⟩
  obtain ⟨i, hi, hget⟩ := h.findTaskIndex_eq hz s.listId
  have hchanged : (tasksFromGraph s.tasks
      ((normalizedDependencyGraph s.tasks).erase (z.taskId, z.taskId))
      env.now).2 = true := by
    refine List.any_eq_true.2 ⟨x, hx, ?_⟩
    by_contra hsame
    refine hrelink ((normalizedDependencyGraph s.tasks).erase
      (z.taskId, z.taskId)) x ?_
    unfold relink
    rw [if_neg hsame]
  have hmut : assertTaskMutable (s.tasks.get i) s.listId = .ok () := by
    rw [hget]
    exact mutable_of_not_archived _ hopen
  have hcall : ∃ r, changeDependency s env z.taskId z.taskId true
      = .ok (r, some (s.replace (tasksFromGraph s.tasks
        ((normalizedDependencyGraph s.tasks).erase (z.taskId, z.taskId))
        env.now).1 env.now)) := by
    have hmutate : mutateDependencyGraph s.tasks s.listId z.taskId z.taskId
        true env.now = .ok (tasksFromGraph s.tasks
          ((normalizedDependencyGraph s.tasks).erase (z.taskId, z.taskId))
          env.now) := by
      unfold mutateDependencyGraph
      rw [hi]
      show (assertTaskMutable (s.tasks.get i) s.listId >>= fun _ =>
        assertTaskMutable (s.tasks.get i) s.listId >>= fun _ => _) = _
      rw [hmut]
      rfl
    unfold changeDependency
    rw [hmutate]
    generalize tasksFromGraph s.tasks ((normalizedDependencyGraph
      s.tasks).erase (z.taskId, z.taskId)) env.now = written at hchanged ⊢
    obtain ⟨tasks', changed⟩ := written
    cases hchanged
    exact ⟨_, rfl⟩
  obtain ⟨r, hr⟩ := hcall
  have hfoot := hframed env (.removeDependency z.taskId z.taskId) r _
    (fun hcreate => by cases hcreate) hr
  have hstays := (hfoot.touches x (fun hname => hne (hname.elim id id))).1 hx
  obtain ⟨u, -, hu⟩ := mem_tasksFromGraph
    ((s.perm_replace _ _).mem_iff.1 hstays)
  exact hrelink _ u hu

theorem coerceStringSequence_of_falsy (v : PyVal) (h : v.truthy = false) :
    coerceStringSequence v = [] := by
  cases v with
  | str s =>
    have hblank : s = "" := by simpa [PyVal.truthy] using h
    subst hblank
    decide
  | list items =>
    have hnil : items = [] := by simpa [PyVal.truthy] using h
    subst hnil
    rfl
  | _ => rfl

/-- A `create` that fails the condition leaves a list that is not
framed. -/
theorem not_framed_of_not_kept {s' : TaskListSnapshot} {env : Env} {op : Op}
    (hw : Writes s env op s') (h : Linked s.tasks) (h' : Linked s'.tasks)
    (hfresh : op.isCreate = true → env.hex.text ∉ taskIds s.tasks)
    (hnot : ¬ KeptInOrder s env op) : ¬ Framed s' := by
  cases hw with
  | @linked _ _ _ _ blocks blockedBy _ t edges ht hdag hedges =>
    rw [← ht.taskId] at hedges hfresh
    have hnew := hfresh rfl
    have hperm := s.perm_replace
      (tasksFromGraph (s.tasks ++ [t]) edges env.now).1 env.now
    have hin : ∀ u ∈ s.tasks ++ [t],
        relink (taskIds (s.tasks ++ [t])) edges env.now u
          ∈ (s.replace (tasksFromGraph (s.tasks ++ [t]) edges
            env.now).1 env.now).tasks :=
      fun u hu => hperm.mem_iff.2 (List.mem_map_of_mem hu)
    unfold KeptInOrder at hnot
    push Not at hnot
    obtain ⟨x, hx, y, hy, hnamed, hlate⟩ := hnot
    have hlast : t ∈ s.tasks ++ [t] :=
      List.mem_append_right _ List.mem_cons_self
    have hopen : (relink (taskIds (s.tasks ++ [t])) edges env.now
        t).isArchived = false := by
      obtain ⟨_, _, _, hsame⟩ := relink_eq (taskIds (s.tasks ++ [t]))
        edges env.now t
      rw [hsame]
      unfold TaskListEntry.isArchived
      rw [ht.archive]
      rfl
    refine not_framed h' env (hin x (List.mem_append_left _ hx))
      (hin t hlast) hopen ?_ ?_
    · rw [taskId_relink, taskId_relink]
      exact fun heq => hnew (heq ▸ mem_taskIds hx)
    · rw [blocks_relink, blockedBy_relink]
      intro hpair
      have hforward := edge_created hnew h ht.blocks ht.blockedBy hedges hx
      have hback :=
        edge_created_back hnew h ht.blocks ht.blockedBy hedges hx
      rcases hnamed with ⟨hx', hy'⟩ | ⟨hx', hy'⟩
      · refine not_inOrder_tuple ht hnew hy hlate ?_ ?_ hpair.2
        · exact mem_predecessors.2 ((hback _).2 (Or.inl hy'))
        · exact mem_predecessors.2 ((hback _).2 (Or.inr ⟨rfl, hx'⟩))
      · refine not_inOrder_tuple ht hnew hy hlate ?_ ?_ hpair.1
        · exact mem_successors.2 ((hforward _).2 (Or.inl hy'))
        · exact mem_successors.2 ((hforward _).2 (Or.inr ⟨rfl, hx'⟩))
  | @created _ _ _ _ blocks blockedBy _ t ht hplain =>
    -- arguments that are falsy name no task
    refine absurd ?_ hnot
    intro x _ y _ hnamed
    rw [coerceStringSequence_of_falsy blocks hplain.1,
      coerceStringSequence_of_falsy blockedBy hplain.2] at hnamed
    rcases hnamed with ⟨hx, -⟩ | ⟨hx, -⟩ <;> cases hx
  | entry hname => cases op <;> first | exact absurd trivial hnot | cases hname
  | _ => exact absurd trivial hnot

-- ============ the runs

def EveryFramed (st : Dict String TaskListSnapshot) : Prop :=
  ∀ listId s, st.get? listId = some s → Framed s

/-- Every stored list has its tuples in order. -/
def EveryInOrder (st : Dict String TaskListSnapshot) : Prop :=
  ∀ listId s, st.get? listId = some s → InOrder s.tasks

/-- The condition on a call: a `create` that succeeds meets it. -/
def CallKeepsOrder (st : Dict String TaskListSnapshot)
    (c : Env × Request) : Prop :=
  ∀ listId op, c.2 = .onList listId op → ∀ r s',
    apply (loadInMemory st c.1 listId) c.1 op = .ok (r, some s') →
    KeptInOrder (loadInMemory st c.1 listId) c.1 op

theorem everyFramed_of_inOrder (hsound : Sound st) (h : EveryInOrder st) :
    EveryFramed st :=
  fun listId s hget =>
    framed_of_inOrder (hsound listId s hget).2.toLinked (h listId s hget)

theorem inOrder_step {st' : Dict String TaskListSnapshot} {c : Env × Request}
    (hsound : Sound st) (h : EveryInOrder st)
    (hstep : (service inMemoryTaskListStore).step st c = some st')
    (hkept : CallKeepsOrder st c) : EveryInOrder st' := by
  obtain ⟨env, request⟩ := c
  rcases step_stores hsound hstep with ⟨rfl, -⟩ | hstores
  · exact h
  · obtain ⟨listId, op, s', rfl, hs⟩ := hstores
    obtain ⟨r, hr⟩ := hs.accepted
    have hload : InOrder (loadInMemory st env listId).tasks := by
      refine forall_load h ?_ env listId
      intro t ht
      cases ht
    exact hs.forall_stored h (hs.writes.inOrder hs.linked hs.fresh hload
      (hkept listId op rfl r s' hr))

theorem not_framed_step {st' : Dict String TaskListSnapshot}
    {c : Env × Request} (hsound : Sound st)
    (hstep : (service inMemoryTaskListStore).step st c = some st')
    (hnot : ¬ CallKeepsOrder st c) : ¬ EveryFramed st' := by
  have hsound' := sound_step hsound hstep
  obtain ⟨env, request⟩ := c
  unfold CallKeepsOrder at hnot
  push Not at hnot
  obtain ⟨listId, op, hreq, r, s', hr, hkept⟩ := hnot
  rcases step_stores hsound hstep with ⟨-, hnone⟩ | hstores
  · exact absurd hr (hnone listId op hreq r s')
  · obtain ⟨listId₁, op₁, s₁, hreq₁, hs⟩ := hstores
    cases hreq.symm.trans hreq₁
    obtain ⟨r₁, hr₁⟩ := hs.accepted
    have heq : Except.ok (r, some s') = Except.ok (r₁, some s₁) :=
      hr.symm.trans hr₁
    cases heq
    intro hframed
    have hget : st'.get? s'.listId = some s' := by
      rw [hs.stored, Dict.get?_insert, if_pos rfl]
    refine not_framed_of_not_kept hs.writes hs.linked ?_ hs.fresh hkept
      (hframed _ s' hget)
    exact (hsound' _ s' hget).2.toLinked

/-- In a run from no lists at all, every operation that succeeds at any
moment touches only the entries it is about exactly when every `create`
that succeeds meets the condition. -/
theorem operations_touch_named_iff {calls : List (Env × Request)} :
    (∀ st, (service inMemoryTaskListStore).Visits Dict.empty calls st →
        EveryFramed st)
      ↔ ∀ st c st',
        (service inMemoryTaskListStore).Takes Dict.empty calls st c st' →
        CallKeepsOrder st c := by
  refine System.visits_iff_takes_of_invariant
    (I := fun st => Sound st ∧ EveryInOrder st)
    (fun st h => everyFramed_of_inOrder h.1 h.2) ?_ ?_ ?_
  · intro st c st' h hstep hkept
    exact ⟨sound_step h.1 hstep, inOrder_step h.1 h.2 hstep hkept⟩
  · intro st c st' h hstep hnot
    exact not_framed_step h.1 hstep hnot
  · refine ⟨sound_of_reachable (System.Reachable.refl _), ?_⟩
    intro listId s hget
    cases hget

-- ==== three tasks in one tick

/-- A call within one tick of the clock. -/
def tickEnv (hex : UuidHex) : Env where
  now := fixedEnv.now
  hex
  spareHex _ := hex

def idBefore : UuidHex := ⟨"000000000000000000000000000000c0", by decide⟩

def idBlocked : UuidHex := ⟨"11111111111111111111111111111111", by decide⟩

def idAfter : UuidHex := ⟨"ffffffffffffffffffffffffffffffff", by decide⟩

/-- A task, one that it blocks, and another that blocks that one; all
three in one tick, the last with the smallest id. -/
def tickRun : List (Env × Request) :=
  [(tickEnv idAfter, .onList "inbox" (.create (.str "a") .none .none .none
      .none .none .none)),
    (tickEnv idBlocked, .onList "inbox" (.create (.str "b") .none .none .none
      .none (.list [.str idAfter.text]) .none)),
    (tickEnv idBefore, .onList "inbox" (.create (.str "c") .none .none .none
      (.list [.str idBlocked.text]) .none .none))]

def tickStore : Dict String TaskListSnapshot :=
  ((service inMemoryTaskListStore).run Dict.empty tickRun).getD Dict.empty

/-- The ids of the tasks of a list with one id, with what they are blocked
by. -/
def blockersOf (tasks : List TaskListEntry) (taskId : String) :
    List (List String) :=
  (tasks.filter fun t => t.taskId = taskId).map TaskListEntry.blockedBy

/-- The blocked task's tuple names the last task last, where the list has
it first. A dependency between the other two turns the tuple around. -/
theorem tuple_turned_around : ∃ s r s',
    tickStore.get? "inbox" = some s
      ∧ apply s (tickEnv idBefore)
        (.addDependency idBefore.text idAfter.text) = .ok (r, some s')
      ∧ blockersOf s.tasks idBlocked.text = [[idAfter.text, idBefore.text]]
      ∧ blockersOf s'.tasks idBlocked.text
        = [[idBefore.text, idAfter.text]] := by
  have hrun : (tickStore.get? "inbox").bind (fun s =>
      (apply s (tickEnv idBefore) (.addDependency idBefore.text
        idAfter.text)).toOption.bind fun outcome => outcome.2.map fun s' =>
          (blockersOf s.tasks idBlocked.text,
            blockersOf s'.tasks idBlocked.text))
      = some ([[idAfter.text, idBefore.text]],
        [[idBefore.text, idAfter.text]]) := by decide +kernel
  obtain ⟨s, hs, hrun⟩ := Option.bind_eq_some_iff.1 hrun
  cases hr : apply s (tickEnv idBefore)
      (.addDependency idBefore.text idAfter.text) with
  | error e =>
    rw [hr] at hrun
    cases hrun
  | ok outcome =>
    obtain ⟨r, next⟩ := outcome
    rw [hr] at hrun
    obtain ⟨s', hnext, hrun⟩ := Option.map_eq_some_iff.1 hrun
    obtain ⟨hold, hnew⟩ := Prod.mk.inj hrun
    subst hnext
    exact ⟨s, r, s', hs, hr, hold, hnew⟩

theorem not_framed_in_one_tick :
    ¬ ∀ st, (service inMemoryTaskListStore).Visits Dict.empty tickRun st →
      EveryFramed st := by
  intro hall
  have hruns : ((service inMemoryTaskListStore).run Dict.empty
      tickRun).isSome = true := by decide +kernel
  obtain ⟨st, hst⟩ := Option.isSome_iff_exists.1 hruns
  have hstore : tickStore = st := by
    unfold tickStore
    rw [hst]
    rfl
  obtain ⟨s, r, s', hget, hr, hold, hnew⟩ := tuple_turned_around
  rw [hstore] at hget
  have hframed := hall st (System.Visits.finish hst) "inbox" s hget
  have hfoot := hframed _ _ r s' (fun hcreate => by cases hcreate) hr
  obtain ⟨t, ht, hblockers⟩ : ∃ t ∈ s.tasks, t.taskId = idBlocked.text
      ∧ t.blockedBy = [idAfter.text, idBefore.text] := by
    have hmem : [idAfter.text, idBefore.text]
        ∈ blockersOf s.tasks idBlocked.text := by
      rw [hold]
      exact List.mem_cons_self
    obtain ⟨t, ht, hb⟩ := List.mem_map.1 hmem
    obtain ⟨hin, hid⟩ := List.mem_filter.1 ht
    exact ⟨t, hin, of_decide_eq_true hid, hb⟩
  have hstays : t ∈ s'.tasks := by
    refine (hfoot.touches t ?_).1 ht
    rw [hblockers.1]
    intro hnamed
    rcases hnamed with heq | heq <;> revert heq <;> decide
  have hmem : t.blockedBy ∈ blockersOf s'.tasks idBlocked.text :=
    List.mem_map_of_mem (List.mem_filter.2
      ⟨hstays, decide_eq_true hblockers.1⟩)
  rw [hnew, hblockers.2, List.mem_singleton] at hmem
  revert hmem
  decide

end WeaveRuntime.TaskLists
