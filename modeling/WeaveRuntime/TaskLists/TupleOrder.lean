/-
The order of the tuples of a task list.

Every operation on dependencies writes the tuples of all tasks from a
graph, each sorted by the positions of the ids. `InOrder` says that the
tuples of a list are sorted so already; it is stated with the sort keys of
the tasks, creation time and id, since in a snapshot positions and keys
agree.

# Where the order is lost

`create` puts the new task at the end of the list, writes the tuples in
THAT order, and leaves the sorting to the snapshot. If the clock has gone
back, or has not moved and the new id is the smaller one, the new task
then stands before a neighbour that it follows in a tuple.
`KeptInOrder` is the condition on a `create` that excludes it.
-/
import WeaveRuntime.TaskLists.Writes

namespace WeaveRuntime.TaskLists

open Lib
open Lib.Graph
open Python

-- =========== the order

theorem TaskListEntry.NotAfter.refl (t : TaskListEntry) : t.NotAfter t :=
  Or.inr ⟨rfl, le_rfl⟩

variable {edges : Edges} {ids : List String} {s : TaskListSnapshot}
  {t : TaskListEntry} {tasks : List TaskListEntry}

theorem TaskListEntry.NotAfter.antisymm {u : TaskListEntry}
    (htu : t.NotAfter u) (hut : u.NotAfter t) : t.taskId = u.taskId := by
  unfold TaskListEntry.NotAfter at htu hut
  rcases htu with htu | ⟨heq, hle⟩
  · rcases hut with hut | ⟨heq, -⟩
    · exact absurd htu (lt_asymm hut)
    · exact absurd heq.symm (ne_of_lt htu)
  · rcases hut with hut | ⟨-, hle'⟩
    · exact absurd heq.symm (ne_of_lt hut)
    · exact le_antisymm hle hle'

/-- The task with one id does not come after the task with another. -/
def Earlier (tasks : List TaskListEntry) (a b : String) : Prop :=
  ∀ x ∈ tasks, ∀ y ∈ tasks, x.taskId = a → y.taskId = b → x.NotAfter y

def InOrder (tasks : List TaskListEntry) : Prop :=
  ∀ t ∈ tasks, t.blocks.Pairwise (Earlier tasks)
    ∧ t.blockedBy.Pairwise (Earlier tasks)

theorem Earlier.of_keys {tasks' : List TaskListEntry} {a b : String}
    (h : Earlier tasks a b)
    (hkeys : ∀ t' ∈ tasks', ∃ t ∈ tasks, t.taskId = t'.taskId
      ∧ t.createdAt = t'.createdAt) : Earlier tasks' a b := by
  intro x' hx' y' hy' ha hb
  obtain ⟨x, hx, hidx, hatx⟩ := hkeys x' hx'
  obtain ⟨y, hy, hidy, haty⟩ := hkeys y' hy'
  have hxy := h x hx y hy (hidx.trans ha) (hidy.trans hb)
  unfold TaskListEntry.NotAfter at hxy ⊢
  rw [← hidx, ← hidy, ← hatx, ← haty]
  exact hxy

section Sorted

variable {tasks : List TaskListEntry}
  (hsorted : tasks.Pairwise TaskListEntry.NotAfter)
  (hnodup : (taskIds tasks).Nodup)

include hnodup in
theorem idxOf_taskIds {i : Nat} (hi : i < tasks.length) :
    (taskIds tasks).idxOf (tasks[i]).taskId = i := by
  have hlen : i < (taskIds tasks).length := by
    unfold taskIds
    rw [List.length_map]
    exact hi
  have hget : (taskIds tasks)[i] = (tasks[i]).taskId := List.getElem_map _
  rw [← hget]
  exact hnodup.idxOf_getElem i hlen

include hsorted hnodup in
theorem earlier_of_orderLe {a b : String}
    (h : OrderLe (taskIds tasks) a b) : Earlier tasks a b := by
  intro x hx y hy ha hb
  obtain ⟨i, hi, rfl⟩ := List.getElem_of_mem hx
  obtain ⟨j, hj, rfl⟩ := List.getElem_of_mem hy
  unfold OrderLe at h
  rw [← ha, ← hb, idxOf_taskIds hnodup hi, idxOf_taskIds hnodup hj] at h
  rcases h with hlt | ⟨heq, -⟩
  · exact List.pairwise_iff_getElem.1 hsorted i j hi hj hlt
  · subst heq
    exact .refl _

include hsorted hnodup in
theorem orderLe_of_earlier {a b : String} (ha : a ∈ taskIds tasks)
    (hb : b ∈ taskIds tasks) (h : Earlier tasks a b) :
    OrderLe (taskIds tasks) a b := by
  rcases total_of (OrderLe (taskIds tasks)) a b with hab | hba
  · exact hab
  · obtain ⟨x, hx, rfl⟩ := List.mem_map.1 ha
    obtain ⟨y, hy, rfl⟩ := List.mem_map.1 hb
    have hyx := earlier_of_orderLe hsorted hnodup hba y hy x hx rfl rfl
    rw [(h x hx y hy rfl rfl).antisymm hyx] at hba ⊢
    exact hba

end Sorted

-- ==== writing from a graph

theorem keys_tasksFromGraph {at_ : Datetime} {t' : TaskListEntry}
    (h : t' ∈ (tasksFromGraph tasks edges at_).1) :
    ∃ t ∈ tasks, t.taskId = t'.taskId ∧ t.createdAt = t'.createdAt := by
  obtain ⟨t, ht, rfl⟩ := mem_tasksFromGraph h
  obtain ⟨_, _, _, hsame⟩ := relink_eq (taskIds tasks) edges at_ t
  rw [hsame]
  exact ⟨t, ht, rfl, rfl⟩

theorem inOrder_of_graph (hsorted : tasks.Pairwise TaskListEntry.NotAfter)
    (hnodup : (taskIds tasks).Nodup) (edges : Edges) (at_ at' : Datetime) :
    InOrder (s.replace (tasksFromGraph tasks edges at_).1 at').tasks := by
  have hperm := s.perm_replace (tasksFromGraph tasks edges at_).1 at'
  have hsort : ∀ set : List String,
      (sortedIds (taskIds tasks) set).Pairwise (Earlier
        (s.replace (tasksFromGraph tasks edges at_).1 at').tasks) := by
    intro set
    refine (List.pairwise_insertionSort _ set).imp fun hab => ?_
    refine (earlier_of_orderLe hsorted hnodup hab).of_keys ?_
    intro t' ht'
    exact keys_tasksFromGraph (hperm.mem_iff.1 ht')
  intro t' ht'
  obtain ⟨t, -, rfl⟩ := mem_tasksFromGraph (hperm.mem_iff.1 ht')
  rw [blocks_relink, blockedBy_relink]
  exact ⟨hsort _, hsort _⟩

theorem edge_iff_blocks (h : Linked tasks) (ht : t ∈ tasks) (a : String) :
    Edge (normalizedDependencyGraph tasks) t.taskId a ↔ a ∈ t.blocks := by
  refine ⟨fun hedge => ?_, fun hmem => ?_⟩
  · obtain ⟨u, hu, hid, hmem⟩ := blocks_of_edge h (fun _ h => h) hedge
    rw [← h.unique hu ht hid]
    exact hmem
  · have hid := h.closed t ht a (Or.inl hmem)
    refine edge_normalized.2 ⟨t, ht, mem_namedEdges.2 (Or.inl ?_)⟩
    refine ⟨rfl, hmem, hid, ?_⟩
    intro heq
    rw [heq] at hmem
    exact h.irrefl ht hmem

theorem edge_iff_blockedBy (h : Linked tasks) (ht : t ∈ tasks) (a : String) :
    Edge (normalizedDependencyGraph tasks) a t.taskId ↔ a ∈ t.blockedBy := by
  rw [← mem_predecessors, mem_predecessors_normalized h ht]

theorem sortedIds_eq {set tuple : List String} (hset : set.Nodup)
    (htuple : tuple.Nodup) (hmem : ∀ a, a ∈ set ↔ a ∈ tuple)
    (horder : tuple.Pairwise (OrderLe ids)) : sortedIds ids set = tuple := by
  have hperm : (sortedIds ids set).Perm tuple :=
    (List.perm_insertionSort _ _).trans
      ((List.perm_ext_iff_of_nodup hset htuple).2 hmem)
  exact hperm.eq_of_pairwise (fun _ _ _ _ => OrderLe.antisymm)
    (List.pairwise_insertionSort _ _) horder

theorem relink_same (h : Linked s.tasks) (horder : InOrder s.tasks)
    (hedges : edges.Nodup) (ht : t ∈ s.tasks)
    (hblocks : ∀ a, Edge edges t.taskId a ↔ a ∈ t.blocks)
    (hblockedBy : ∀ a, Edge edges a t.taskId ↔ a ∈ t.blockedBy)
    (hids : ∀ a b, Earlier s.tasks a b →
      (a ∈ t.blocks ∧ b ∈ t.blocks) ∨ (a ∈ t.blockedBy ∧ b ∈ t.blockedBy) →
      OrderLe ids a b) (at_ : Datetime) : relink ids edges at_ t = t := by
  have hforward : sortedIds ids (successors edges t.taskId) = t.blocks := by
    refine sortedIds_eq (nodup_successors hedges _) (h.nodupBlocks t ht)
      ?_ ?_
    · intro a
      rw [mem_successors]
      exact hblocks a
    · exact (horder t ht).1.imp_of_mem
        fun ha hb hab => hids _ _ hab (Or.inl ⟨ha, hb⟩)
  have hback : sortedIds ids (predecessors edges t.taskId)
      = t.blockedBy := by
    refine sortedIds_eq (nodup_predecessors hedges _)
      (h.nodupBlockedBy t ht) ?_ ?_
    · intro a
      rw [mem_predecessors]
      exact hblockedBy a
    · exact (horder t ht).2.imp_of_mem
        fun ha hb hab => hids _ _ hab (Or.inr ⟨ha, hb⟩)
  unfold relink
  split
  · next hchanges =>
    unfold relinkChanges at hchanges
    simp [hforward, hback] at hchanges
  · rfl

/-- Where the tasks with one id are not touched, a rewrite keeps and adds
no entry with that id. -/
theorem mem_graph_iff {at_ at' : Datetime}
    (hkeep : ∀ u ∈ tasks, u.taskId = t.taskId →
      relink (taskIds tasks) edges at_ u = u) :
    t ∈ (s.replace (tasksFromGraph tasks edges at_).1 at').tasks
      ↔ t ∈ tasks := by
  have hperm := s.perm_replace (tasksFromGraph tasks edges at_).1 at'
  rw [hperm.mem_iff]
  refine ⟨fun ht => ?_, fun ht => ?_⟩
  · obtain ⟨u, hu, hrelink⟩ := mem_tasksFromGraph ht
    have hid : u.taskId = t.taskId := by
      rw [← hrelink, taskId_relink]
    rw [← hrelink, hkeep u hu hid]
    exact hu
  · refine List.mem_map.2 ⟨t, ht, hkeep t ht rfl⟩

-- ======= the creations

/-- A task of the list sorts before the one `create` builds. -/
def BeforeNew (env : Env) (y : TaskListEntry) : Prop :=
  y.createdAt.stamp < env.now.stamp
    ∨ (y.createdAt.stamp = env.now.stamp ∧ y.taskId ≤ env.hex.text)

/-- What keeps the tuples in order: where a new task is written into a
tuple of a task, it sorts after all that the tuple names. -/
def KeptInOrder (s : TaskListSnapshot) (env : Env) : Op → Prop
  | .create _ _ _ _ blocks blockedBy _ => ∀ x ∈ s.tasks, ∀ y ∈ s.tasks,
      (x.taskId ∈ coerceStringSequence blocks
          ∧ y.taskId ∈ x.blockedBy
        ∨ x.taskId ∈ coerceStringSequence blockedBy
          ∧ y.taskId ∈ x.blocks) →
      BeforeNew env y
  | _ => True

theorem NewTask.notAfter_iff {env : Env} {y : TaskListEntry}
    (ht : NewTask env t) : y.NotAfter t ↔ BeforeNew env y := by
  unfold TaskListEntry.NotAfter BeforeNew
  rw [ht.taskId, ht.createdAt]

section Concat

variable {tasks : List TaskListEntry} {t : TaskListEntry}
  (hfresh : t.taskId ∉ taskIds tasks)

theorem taskIds_concat :
    taskIds (tasks ++ [t]) = taskIds tasks ++ [t.taskId] :=
  List.map_append

theorem idxOf_concat_old {a : String} (ha : a ∈ taskIds tasks) :
    (taskIds (tasks ++ [t])).idxOf a = (taskIds tasks).idxOf a := by
  rw [taskIds_concat, List.idxOf_append_of_mem ha]

include hfresh in
theorem idxOf_concat_new :
    (taskIds (tasks ++ [t])).idxOf t.taskId = (taskIds tasks).length := by
  rw [taskIds_concat, List.idxOf_append_of_notMem hfresh]
  simp

include hfresh in
theorem not_orderLe_new {a : String} (ha : a ∈ taskIds tasks) :
    ¬ OrderLe (taskIds (tasks ++ [t])) t.taskId a := by
  have hlt := List.idxOf_lt_length_of_mem ha
  unfold OrderLe
  rw [idxOf_concat_new hfresh, idxOf_concat_old ha]
  omega

theorem orderLe_concat_old {a b : String} (ha : a ∈ taskIds tasks)
    (hb : b ∈ taskIds tasks) : OrderLe (taskIds (tasks ++ [t])) a b
      ↔ OrderLe (taskIds tasks) a b := by
  unfold OrderLe
  rw [idxOf_concat_old ha, idxOf_concat_old hb]

include hfresh in
theorem earlier_concat (hsorted : tasks.Pairwise TaskListEntry.NotAfter)
    (hnodup : (taskIds tasks).Nodup) {a b : String}
    (hle : OrderLe (taskIds (tasks ++ [t])) a b)
    (hnew : b = t.taskId → ∀ y ∈ tasks, y.taskId = a → y.NotAfter t) :
    Earlier (tasks ++ [t]) a b := by
  intro x hx y hy ha hb
  rcases List.mem_append.1 hx with hx | hx
  · have hina : a ∈ taskIds tasks := ha ▸ mem_taskIds hx
    rcases List.mem_append.1 hy with hy | hy
    · have hinb : b ∈ taskIds tasks := hb ▸ mem_taskIds hy
      exact earlier_of_orderLe hsorted hnodup
        ((orderLe_concat_old hina hinb).1 hle) x hx y hy ha hb
    · rw [List.mem_singleton.1 hy] at hb ⊢
      exact hnew hb.symm x hx ha
  · rw [List.mem_singleton.1 hx] at ha ⊢
    rcases List.mem_append.1 hy with hy | hy
    · rw [← ha, ← hb] at hle
      exact absurd hle (not_orderLe_new hfresh (mem_taskIds hy))
    · rw [List.mem_singleton.1 hy]
      exact .refl t

variable (h : Linked tasks) (hb : t.blocks = []) (hbb : t.blockedBy = [])
  {edges : Edges} {blocks blockedBy : PyVal}
  (hedges : ∀ e, e ∈ edges ↔ e ∈ normalizedDependencyGraph (tasks ++ [t])
    ∨ overrideEdge t.taskId blocks blockedBy e)

include hfresh h hb hbb hedges

theorem edge_created {u : TaskListEntry} (hu : u ∈ tasks) (a : String) :
    Edge edges u.taskId a ↔ a ∈ u.blocks
      ∨ (a = t.taskId ∧ u.taskId ∈ coerceStringSequence blockedBy) := by
  have hmem := List.mem_append_left [t] hu
  have hne : u.taskId ≠ t.taskId :=
    fun heq => hfresh (heq ▸ mem_taskIds hu)
  have hold := edge_iff_blocks (h.concat hfresh hb hbb) hmem a
  unfold Edge at hold ⊢
  rw [hedges, hold]
  refine or_congr_right ⟨fun hown => ?_, Or.inr⟩
  exact hown.resolve_left fun hfirst => hne hfirst.1

theorem edge_created_back {u : TaskListEntry} (hu : u ∈ tasks) (a : String) :
    Edge edges a u.taskId ↔ a ∈ u.blockedBy
      ∨ (a = t.taskId ∧ u.taskId ∈ coerceStringSequence blocks) := by
  have hmem := List.mem_append_left [t] hu
  have hne : u.taskId ≠ t.taskId :=
    fun heq => hfresh (heq ▸ mem_taskIds hu)
  have hold := edge_iff_blockedBy (h.concat hfresh hb hbb) hmem a
  unfold Edge at hold ⊢
  rw [hedges, hold]
  refine or_congr_right ⟨fun hown => ?_, Or.inl⟩
  exact hown.resolve_right fun hsecond => hne hsecond.1

end Concat

theorem inOrder_created (h : Linked s.tasks) {env : Env} (ht : NewTask env t)
    (hfresh : t.taskId ∉ taskIds s.tasks)
    {subject description activeForm owner blocks blockedBy metadata : PyVal}
    (hdag : Dag (taskIds (s.tasks ++ [t])) edges) (hedges : ∀ e, e ∈ edges ↔
      e ∈ normalizedDependencyGraph (s.tasks ++ [t])
        ∨ overrideEdge t.taskId blocks blockedBy e)
    (hkept : KeptInOrder s env (.create subject description activeForm owner
      blocks blockedBy metadata)) (at_ : Datetime) :
    InOrder (s.replace
      (tasksFromGraph (s.tasks ++ [t]) edges at_).1 at_).tasks := by
  have hperm := s.perm_replace
    (tasksFromGraph (s.tasks ++ [t]) edges at_).1 at_
  have hloop : ¬ Edge edges t.taskId t.taskId :=
    fun hself => hdag.acyclic t.taskId (.single hself)
  have hforward := fun u hu => edge_created (u := u) hfresh h ht.blocks
    ht.blockedBy hedges hu
  have hback := fun u hu => edge_created_back (u := u) hfresh h ht.blocks
    ht.blockedBy hedges hu
  -- one tuple: it is enough to look at what the new task comes after
  have htuple : ∀ set : List String, (t.taskId ∈ set →
        ∀ y ∈ s.tasks, y.taskId ∈ set → BeforeNew env y) →
      (sortedIds (taskIds (s.tasks ++ [t])) set).Pairwise (Earlier
        (s.replace (tasksFromGraph (s.tasks ++ [t]) edges at_).1
          at_).tasks) := by
    intro set hset
    refine (List.pairwise_insertionSort _ set).imp_of_mem ?_
    intro a b ha hb hab
    have hkeys : Earlier (s.tasks ++ [t]) a b := by
      refine earlier_concat hfresh s.ordered h.nodup hab ?_
      intro hnew y hy hya
      refine ht.notAfter_iff.2 (hset ?_ y hy ?_)
      · exact hnew ▸ mem_sortedIds.1 hb
      · exact hya ▸ mem_sortedIds.1 ha
    exact hkeys.of_keys fun t' ht' =>
      keys_tasksFromGraph (hperm.mem_iff.1 ht')
  intro t' ht'
  obtain ⟨u, hu, rfl⟩ := mem_tasksFromGraph (hperm.mem_iff.1 ht')
  rw [blocks_relink, blockedBy_relink]
  refine ⟨htuple _ ?_, htuple _ ?_⟩
  · intro hnew y hy hmem
    rw [mem_successors] at hnew hmem
    rcases List.mem_append.1 hu with hu | hu
    · refine hkept u hu y hy (Or.inr ⟨?_, ?_⟩)
      · rcases (hforward u hu _).1 hnew with hin | hown
        · exact absurd (h.closed u hu _ (Or.inl hin)) hfresh
        · exact hown.2
      · refine ((hforward u hu _).1 hmem).resolve_right fun hown => ?_
        exact hfresh (hown.1 ▸ mem_taskIds hy)
    · rw [List.mem_singleton.1 hu] at hnew
      exact absurd hnew hloop
  · intro hnew y hy hmem
    rw [mem_predecessors] at hnew hmem
    rcases List.mem_append.1 hu with hu | hu
    · refine hkept u hu y hy (Or.inl ⟨?_, ?_⟩)
      · rcases (hback u hu _).1 hnew with hin | hown
        · exact absurd (h.closed u hu _ (Or.inr hin)) hfresh
        · exact hown.2
      · refine ((hback u hu _).1 hmem).resolve_right fun hown => ?_
        exact hfresh (hown.1 ▸ mem_taskIds hy)
    · rw [List.mem_singleton.1 hu] at hnew
      exact absurd hnew hloop

theorem pairwise_or {R : String → String → Prop} (h : ids.Pairwise R)
    {a b : String} (ha : a ∈ ids) (hb : b ∈ ids) (hne : a ≠ b) :
    R a b ∨ R b a := by
  obtain ⟨i, hi, rfl⟩ := List.getElem_of_mem ha
  obtain ⟨j, hj, rfl⟩ := List.getElem_of_mem hb
  rcases lt_trichotomy i j with hlt | heq | hlt
  · exact Or.inl (List.pairwise_iff_getElem.1 h i j hi hj hlt)
  · subst heq
    exact absurd rfl hne
  · exact Or.inr (List.pairwise_iff_getElem.1 h j i hj hi hlt)

/-- A tuple that names a task the new one should precede is left out of
order. -/
theorem not_inOrder_tuple {env : Env} (ht : NewTask env t)
    (hfresh : t.taskId ∉ taskIds s.tasks) {at_ : Datetime} {y : TaskListEntry}
    (hy : y ∈ s.tasks) (hlate : ¬ BeforeNew env y) {set : List String}
    (hmem : y.taskId ∈ set) (hnew : t.taskId ∈ set) :
    ¬ (sortedIds (taskIds (s.tasks ++ [t])) set).Pairwise (Earlier
      (s.replace (tasksFromGraph (s.tasks ++ [t]) edges at_).1
        at_).tasks) := by
  intro hpair
  have hperm := s.perm_replace
    (tasksFromGraph (s.tasks ++ [t]) edges at_).1 at_
  have hne : y.taskId ≠ t.taskId :=
    fun heq => hfresh (heq ▸ mem_taskIds hy)
  have hboth := hpair.and
    (List.pairwise_insertionSort (OrderLe (taskIds (s.tasks ++ [t]))) set)
  rcases pairwise_or hboth (mem_sortedIds.2 hmem) (mem_sortedIds.2 hnew)
    hne with ⟨hearlier, -⟩ | ⟨-, hle⟩
  · have hkey : Earlier (s.tasks ++ [t]) y.taskId t.taskId := by
      refine hearlier.of_keys fun u hu => ?_
      obtain ⟨_, _, _, hsame⟩ := relink_eq (taskIds (s.tasks ++ [t])) edges
        at_ u
      refine ⟨relink (taskIds (s.tasks ++ [t])) edges at_ u, ?_, ?_, ?_⟩
      · exact hperm.mem_iff.2 (List.mem_map_of_mem hu)
      · rw [hsame]
      · rw [hsame]
    refine hlate (ht.notAfter_iff.1 (hkey y ?_ t ?_ rfl rfl))
    · exact List.mem_append_left _ hy
    · exact List.mem_append_right _ List.mem_cons_self
  · exact not_orderLe_new hfresh (mem_taskIds hy) hle

-- ===== every operation

theorem Writes.inOrder {s' : TaskListSnapshot} {env : Env} {op : Op}
    (hw : Writes s env op s') (h : Linked s.tasks)
    (hfresh : op.isCreate = true → env.hex.text ∉ taskIds s.tasks)
    (horder : InOrder s.tasks) (hkept : KeptInOrder s env op) :
    InOrder s'.tasks := by
  cases hw with
  | @entry op i u at_ _ _ hu _ =>
    have hperm := s.perm_replace (s.tasks.set i u) at_
    have hkeys : ∀ t' ∈ (s.replace (s.tasks.set i u) at_).tasks,
        ∃ t ∈ s.tasks, t.taskId = t'.taskId ∧ t.createdAt = t'.createdAt
          ∧ t.blocks = t'.blocks ∧ t.blockedBy = t'.blockedBy := by
      intro t' ht'
      rcases List.mem_or_eq_of_mem_set (hperm.mem_iff.1 ht') with ht' | rfl
      · exact ⟨t', ht', rfl, rfl, rfl, rfl⟩
      · exact ⟨s.tasks.get i, List.get_mem _ _, hu.taskId.symm,
          hu.createdAt.symm, hu.blocks.symm, hu.blockedBy.symm⟩
    have hearlier : ∀ {a b : String}, Earlier s.tasks a b →
        Earlier (s.replace (s.tasks.set i u) at_).tasks a b := by
      intro a b hab
      refine hab.of_keys fun t' ht' => ?_
      obtain ⟨t, ht, hid, hat, -, -⟩ := hkeys t' ht'
      exact ⟨t, ht, hid, hat⟩
    intro t' ht'
    obtain ⟨t, ht, -, -, hb, hbb⟩ := hkeys t' ht'
    rw [← hb, ← hbb]
    exact ⟨(horder t ht).1.imp hearlier, (horder t ht).2.imp hearlier⟩
  | @created _ _ _ _ _ _ _ t ht =>
    have hnew : t.taskId ∉ taskIds s.tasks := by
      rw [ht.taskId]
      exact hfresh rfl
    have hperm := s.perm_replace (s.tasks ++ [t]) env.now
    have hearlier : ∀ {a b : String}, a ∈ taskIds s.tasks →
        b ∈ taskIds s.tasks → Earlier s.tasks a b →
        Earlier (s.replace (s.tasks ++ [t]) env.now).tasks a b := by
      intro a b ha hb hab
      have hconcat : Earlier (s.tasks ++ [t]) a b := by
        refine earlier_concat hnew s.ordered h.nodup
          ((orderLe_concat_old ha hb).2
            (orderLe_of_earlier s.ordered h.nodup ha hb hab)) ?_
        intro heq
        exact absurd (heq ▸ hb) hnew
      exact hconcat.of_keys fun t' ht' =>
        ⟨t', hperm.mem_iff.1 ht', rfl, rfl⟩
    intro t' ht'
    rcases List.mem_append.1 (hperm.mem_iff.1 ht') with hold | hlast
    · refine ⟨(horder t' hold).1.imp_of_mem fun ha hb => ?_,
        (horder t' hold).2.imp_of_mem fun ha hb => ?_⟩
      · exact hearlier (h.closed t' hold _ (Or.inl ha))
          (h.closed t' hold _ (Or.inl hb))
      · exact hearlier (h.closed t' hold _ (Or.inr ha))
          (h.closed t' hold _ (Or.inr hb))
    · rw [List.mem_singleton.1 hlast, ht.blocks, ht.blockedBy]
      exact ⟨.nil, .nil⟩
  | linked ht hdag hedges =>
    rw [← ht.taskId] at hedges hfresh
    exact inOrder_created h ht (hfresh rfl) hdag hedges hkept env.now
  | deleted =>
    refine inOrder_of_graph (s.ordered.filter _) ?_ _ _ _
    exact h.nodup.sublist (List.filter_sublist.map _)
  | _ => exact inOrder_of_graph s.ordered h.nodup _ _ _

end WeaveRuntime.TaskLists
