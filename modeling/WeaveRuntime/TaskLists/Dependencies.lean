/-
The dependency graph of a task list.

Each task carries both ends of its edges, `blocks` and `blocked_by`. The
operations on dependencies read the tuples of all tasks into one graph
(`normalizedDependencyGraph`), change the graph, and write every task's
tuples again from it (`tasksFromGraph`). The code keeps the graph as a
dictionary of sets; here it is a list of edges without duplicates.

# The argument

`Linked` is what the tuples of a list satisfy, `Dag` what a graph over
the ids satisfies. Reading any part of a linked list gives a dag
(`dag_normalized`), each change keeps it a dag (`Dag.insert`,
`Dag.erase`), and writing a dag back gives a linked list
(`linked_tasksFromGraph`). The path search before each edge is what
`Dag.insert` needs: a new edge closes no cycle when its source is out of
reach of its target.
-/
import WeaveRuntime.Lib.Graph
import WeaveRuntime.TaskLists.Model
import Mathlib.Data.List.Dedup

namespace WeaveRuntime.TaskLists

open Lib
open Lib.Graph
open Python

-- =========== the order

/-- The sort key of the tuples, `(order.get(item, len(order)), item)`. -/
def OrderLe (ids : List String) (a b : String) : Prop :=
  ids.idxOf a < ids.idxOf b ∨ (ids.idxOf a = ids.idxOf b ∧ a ≤ b)

instance (ids : List String) : DecidableRel (OrderLe ids) := fun _ _ =>
  inferInstanceAs (Decidable (_ ∨ _))

instance (ids : List String) : Std.Total (OrderLe ids) where
  total a b := by
    unfold OrderLe
    rcases lt_trichotomy (ids.idxOf a) (ids.idxOf b) with h | h | h
    · exact Or.inl (Or.inl h)
    · rcases le_total a b with hab | hba
      · exact Or.inl (Or.inr ⟨h, hab⟩)
      · exact Or.inr (Or.inr ⟨h.symm, hba⟩)
    · exact Or.inr (Or.inl h)

instance (ids : List String) : IsTrans String (OrderLe ids) where
  trans a b c := by
    unfold OrderLe
    intro hab hbc
    rcases hab with hab | ⟨hab, hlab⟩
    · rcases hbc with hbc | ⟨hbc, -⟩
      · exact Or.inl (lt_trans hab hbc)
      · exact Or.inl (lt_of_lt_of_eq hab hbc)
    · rcases hbc with hbc | ⟨hbc, hlbc⟩
      · exact Or.inl (lt_of_eq_of_lt hab hbc)
      · exact Or.inr ⟨hab.trans hbc, le_trans hlab hlbc⟩

variable {a : String} {edges : Edges} {ids set : List String}
  {t : TaskListEntry} {tasks : List TaskListEntry}

theorem OrderLe.antisymm {b : String} (hab : OrderLe ids a b)
    (hba : OrderLe ids b a) : a = b := by
  unfold OrderLe at hab hba
  rcases hab with hab | ⟨heq, hab⟩
  · rcases hba with hba | ⟨heq, -⟩
    · omega
    · omega
  · rcases hba with hba | ⟨-, hba⟩
    · omega
    · exact le_antisymm hab hba

def sortedIds (ids set : List String) : List String :=
  set.insertionSort (OrderLe ids)

theorem mem_sortedIds : a ∈ sortedIds ids set ↔ a ∈ set :=
  List.mem_insertionSort _

theorem nodup_sortedIds (h : set.Nodup) : (sortedIds ids set).Nodup :=
  (List.perm_insertionSort _ _).nodup_iff.2 h

theorem sortedIds_congr {set' : List String} (h : set.Perm set') :
    sortedIds ids set = sortedIds ids set' := by
  have hperm : (sortedIds ids set).Perm (sortedIds ids set') :=
    ((List.perm_insertionSort _ _).trans h).trans
      (List.perm_insertionSort _ _).symm
  have hsorted := List.pairwise_insertionSort (OrderLe ids) set
  have hsorted' := List.pairwise_insertionSort (OrderLe ids) set'
  exact hperm.eq_of_pairwise (fun _ _ _ _ => OrderLe.antisymm) hsorted hsorted'

theorem sortedIds_filter (ids set : List String) (p : String → Bool) :
    sortedIds ids (set.filter p) = (sortedIds ids set).filter p := by
  have hperm : (sortedIds ids (set.filter p)).Perm
      ((sortedIds ids set).filter p) :=
    (List.perm_insertionSort _ _).trans
      ((List.perm_insertionSort _ _).symm.filter p)
  have hsorted := List.pairwise_insertionSort (OrderLe ids) (set.filter p)
  have hsorted' : ((sortedIds ids set).filter p).Pairwise (OrderLe ids) :=
    (List.pairwise_insertionSort (OrderLe ids) set).filter p
  exact hperm.eq_of_pairwise (fun _ _ _ _ => OrderLe.antisymm) hsorted hsorted'

-- =========== the graph

abbrev Edges := List (String × String)

/-- The edges a task's tuples name, other than to itself or out of the
list. -/
def namedEdges (ids : List String) (t : TaskListEntry) : Edges :=
  let named := fun b => b ∈ ids ∧ b ≠ t.taskId
  (t.blocks.filter named).map (fun b => (t.taskId, b))
    ++ (t.blockedBy.filter named).map (fun b => (b, t.taskId))

def normalizedDependencyGraph (tasks : List TaskListEntry) : Edges :=
  (tasks.flatMap (namedEdges (taskIds tasks))).dedup

/-- Whether the graph changes a task's tuples. -/
def relinkChanges (ids : List String) (edges : Edges) (t : TaskListEntry) :
    Bool :=
  sortedIds ids (successors edges t.taskId) ≠ t.blocks
    ∨ sortedIds ids (predecessors edges t.taskId) ≠ t.blockedBy

/-- One task with its tuples written from the graph; `updated_at` moves
where a tuple changes. -/
def relink (ids : List String) (edges : Edges) (mutationTime : Datetime)
    (t : TaskListEntry) : TaskListEntry :=
  if relinkChanges ids edges t then
    { t with
      blocks := sortedIds ids (successors edges t.taskId)
      blockedBy := sortedIds ids (predecessors edges t.taskId)
      updatedAt := mutationTime }
  else t

def tasksFromGraph (tasks : List TaskListEntry) (edges : Edges)
    (mutationTime : Datetime) : List TaskListEntry × Bool :=
  (tasks.map (relink (taskIds tasks) edges mutationTime),
    tasks.any (relinkChanges (taskIds tasks) edges))

def mutateDependencyGraph (tasks : List TaskListEntry)
    (listId blockerTaskId blockedTaskId : String) (remove : Bool)
    (mutationTime : Datetime) :
    Except Raised (List TaskListEntry × Bool) := do
  let blockerIndex ← findTaskIndex tasks listId blockerTaskId
  let blockedIndex ← findTaskIndex tasks listId blockedTaskId
  assertTaskMutable (tasks.get blockerIndex) listId
  assertTaskMutable (tasks.get blockedIndex) listId
  raiseIf (remove = false ∧ blockerTaskId = blockedTaskId)
    (taskListDependencyCycleError listId blockerTaskId blockedTaskId)
  let edges := normalizedDependencyGraph tasks
  if remove then
    .ok (tasksFromGraph tasks (edges.erase (blockerTaskId, blockedTaskId))
      mutationTime)
  else do
    raiseIf ((blockerTaskId, blockedTaskId) ∉ edges
        ∧ pathExists edges blockedTaskId blockerTaskId = true)
      (taskListDependencyCycleError listId blockerTaskId blockedTaskId)
    .ok (tasksFromGraph tasks
      (insertEdge edges (blockerTaskId, blockedTaskId)) mutationTime)

def coerceStringSequence : PyVal → List String
  | .str s => (stripOrNone s).toList
  | .list items => items.filterMap coerceOptionalString
  | _ => []

/-- One pass of the loops of `_apply_dependency_overrides`: the edge
between the task and another one, in either direction. -/
def addOverride (tasks : List TaskListEntry) (listId other : String)
    (blockerTaskId blockedTaskId : String) (edges : Edges) :
    Except Raised Edges := do
  let index ← findTaskIndex tasks listId other
  assertTaskMutable (tasks.get index) listId
  raiseIf (blockerTaskId = blockedTaskId
      ∨ pathExists edges blockedTaskId blockerTaskId = true)
    (taskListDependencyCycleError listId blockerTaskId blockedTaskId)
  .ok (insertEdge edges (blockerTaskId, blockedTaskId))

def applyDependencyOverrides (tasks : List TaskListEntry)
    (listId taskId : String) (blocks blockedBy : PyVal)
    (mutationTime : Datetime) :
    Except Raised (List TaskListEntry × Bool) := do
  let taskIndex ← findTaskIndex tasks listId taskId
  assertTaskMutable (tasks.get taskIndex) listId
  let edges := normalizedDependencyGraph tasks
  let edges ← (coerceStringSequence blocks).foldlM (fun edges blockedTaskId =>
    addOverride tasks listId blockedTaskId taskId blockedTaskId edges) edges
  let edges ← (coerceStringSequence blockedBy).foldlM
    (fun edges blockerTaskId =>
      addOverride tasks listId blockerTaskId blockerTaskId taskId edges) edges
  .ok (tasksFromGraph tasks edges mutationTime)

-- ======== linked lists

/-- The relation the `blocks` tuples state. -/
def Blocks (tasks : List TaskListEntry) (a b : String) : Prop :=
  ∃ t ∈ tasks, t.taskId = a ∧ b ∈ t.blocks

/-- What the ids and the tuples of a task list satisfy. -/
structure Linked (tasks : List TaskListEntry) : Prop where
  nodup : (taskIds tasks).Nodup
  closed : ∀ t ∈ tasks, ∀ x, x ∈ t.blocks ∨ x ∈ t.blockedBy →
    x ∈ taskIds tasks
  symmetric : ∀ t ∈ tasks, ∀ u ∈ tasks,
    u.taskId ∈ t.blocks ↔ t.taskId ∈ u.blockedBy
  nodupBlocks : ∀ t ∈ tasks, t.blocks.Nodup
  nodupBlockedBy : ∀ t ∈ tasks, t.blockedBy.Nodup
  acyclic : Acyclic (Blocks tasks)

/-- What a graph over a list of ids satisfies. -/
structure Dag (ids : List String) (edges : Edges) : Prop where
  nodup : edges.Nodup
  within : ∀ a b, Edge edges a b → a ∈ ids ∧ b ∈ ids
  acyclic : Acyclic (Edge edges)

theorem Linked.unique (h : Linked tasks) {u : TaskListEntry} (ht : t ∈ tasks)
    (hu : u ∈ tasks) (hid : t.taskId = u.taskId) : t = u :=
  List.inj_on_of_nodup_map h.nodup ht hu hid

theorem mem_taskIds (h : t ∈ tasks) : t.taskId ∈ taskIds tasks :=
  List.mem_map_of_mem h

theorem Linked.findTaskIndex_eq (h : Linked tasks) (ht : t ∈ tasks)
    (listId : String) :
    ∃ index, findTaskIndex tasks listId t.taskId = .ok index
      ∧ tasks.get index = t := by
  obtain ⟨index, hindex⟩ := findTaskIndex_of_mem listId (mem_taskIds ht)
  exact ⟨index, hindex, h.unique (List.get_mem _ _) ht
    (taskId_of_findTaskIndex hindex)⟩

theorem linked_nil : Linked [] where
  nodup := List.nodup_nil
  closed t ht := by cases ht
  symmetric t ht := by cases ht
  nodupBlocks t ht := by cases ht
  nodupBlockedBy t ht := by cases ht
  acyclic := by
    intro a hcycle
    obtain ⟨b, hab, -⟩ := Relation.TransGen.head'_iff.1 hcycle
    obtain ⟨t, ht, -⟩ := hab
    cases ht

theorem Linked.of_links {tasks' : List TaskListEntry} (h : Linked tasks)
    (hids : (taskIds tasks').Perm (taskIds tasks))
    (hlinks : ∀ t' ∈ tasks', ∃ t ∈ tasks, t'.taskId = t.taskId
      ∧ t'.blocks = t.blocks ∧ t'.blockedBy = t.blockedBy) :
    Linked tasks' := by
  refine ⟨hids.nodup_iff.2 h.nodup, ?_, ?_, ?_, ?_, ?_⟩
  · intro t' ht' x hx
    obtain ⟨t, ht, -, hb, hbb⟩ := hlinks t' ht'
    rw [hb, hbb] at hx
    exact hids.mem_iff.2 (h.closed t ht x hx)
  · intro t' ht' u' hu'
    obtain ⟨t, ht, hid, hb, -⟩ := hlinks t' ht'
    obtain ⟨u, hu, hid', -, hbb⟩ := hlinks u' hu'
    rw [hid, hid', hb, hbb]
    exact h.symmetric t ht u hu
  · intro t' ht'
    obtain ⟨t, ht, -, hb, -⟩ := hlinks t' ht'
    rw [hb]
    exact h.nodupBlocks t ht
  · intro t' ht'
    obtain ⟨t, ht, -, -, hbb⟩ := hlinks t' ht'
    rw [hbb]
    exact h.nodupBlockedBy t ht
  · apply h.acyclic.mono
    intro a b hab
    obtain ⟨t', ht', rfl, hmem⟩ := hab
    obtain ⟨t, ht, hid, hb, -⟩ := hlinks t' ht'
    exact ⟨t, ht, hid.symm, hb ▸ hmem⟩

theorem Linked.perm {tasks' : List TaskListEntry} (h : Linked tasks)
    (hperm : tasks'.Perm tasks) : Linked tasks' := by
  refine h.of_links (hperm.map _) ?_
  intro t ht
  exact ⟨t, hperm.mem_iff.1 ht, rfl, rfl, rfl⟩

theorem Linked.concat (h : Linked tasks) (hfresh : t.taskId ∉ taskIds tasks)
    (hb : t.blocks = []) (hbb : t.blockedBy = []) :
    Linked (tasks ++ [t]) := by
  have hids : taskIds (tasks ++ [t]) = taskIds tasks ++ [t.taskId] :=
    List.map_append
  -- the new id is in no tuple of an old task
  have hold : ∀ u ∈ tasks, t.taskId ∉ u.blocks ∧ t.taskId ∉ u.blockedBy := by
    intro u hu
    exact ⟨fun hx => hfresh (h.closed u hu _ (Or.inl hx)),
      fun hx => hfresh (h.closed u hu _ (Or.inr hx))⟩
  refine ⟨?_, ?_, ?_, ?_, ?_, ?_⟩
  · rw [hids]
    refine List.nodup_append.2 ⟨h.nodup, List.nodup_singleton _, ?_⟩
    intro a ha b hb' hab
    rw [List.mem_singleton.1 hb'] at hab
    exact hfresh (hab ▸ ha)
  · intro u hu x hx
    rw [hids, List.mem_append]
    rcases List.mem_append.1 hu with hu | hu
    · exact Or.inl (h.closed u hu x hx)
    · rw [List.mem_singleton.1 hu, hb, hbb] at hx
      rcases hx with hx | hx <;> cases hx
  · intro u hu v hv
    rcases List.mem_append.1 hu with hu | hu
    · rcases List.mem_append.1 hv with hv | hv
      · exact h.symmetric u hu v hv
      · rw [List.mem_singleton.1 hv, hbb]
        exact ⟨fun hx => absurd hx (hold u hu).1, fun hx => by cases hx⟩
    · rcases List.mem_append.1 hv with hv | hv
      · rw [List.mem_singleton.1 hu, hb]
        exact ⟨(fun hx => by cases hx), fun hx => absurd hx (hold v hv).2⟩
      · rw [List.mem_singleton.1 hu, List.mem_singleton.1 hv, hb, hbb]
  · intro u hu
    rcases List.mem_append.1 hu with hu | hu
    · exact h.nodupBlocks u hu
    · rw [List.mem_singleton.1 hu, hb]
      exact List.nodup_nil
  · intro u hu
    rcases List.mem_append.1 hu with hu | hu
    · exact h.nodupBlockedBy u hu
    · rw [List.mem_singleton.1 hu, hbb]
      exact List.nodup_nil
  · apply h.acyclic.mono
    intro a b hab
    obtain ⟨u, hu, rfl, hmem⟩ := hab
    rcases List.mem_append.1 hu with hu | hu
    · exact ⟨u, hu, rfl, hmem⟩
    · rw [List.mem_singleton.1 hu, hb] at hmem
      cases hmem

theorem Linked.irrefl (h : Linked tasks) (ht : t ∈ tasks) :
    t.taskId ∉ t.blocks := by
  intro hmem
  exact h.acyclic t.taskId (.single ⟨t, ht, rfl, hmem⟩)

-- ====== reading tuples

theorem mem_namedEdges {b : String} :
    (a, b) ∈ namedEdges ids t
      ↔ (a = t.taskId ∧ b ∈ t.blocks ∧ b ∈ ids ∧ b ≠ t.taskId)
        ∨ (b = t.taskId ∧ a ∈ t.blockedBy ∧ a ∈ ids ∧ a ≠ t.taskId) := by
  unfold namedEdges
  simp only [List.mem_append, List.mem_map, List.mem_filter,
    decide_eq_true_eq, Prod.mk.injEq]
  constructor
  · intro h
    rcases h with ⟨x, ⟨hx, hid, hne⟩, rfl, rfl⟩ | ⟨x, ⟨hx, hid, hne⟩, rfl, rfl⟩
    · exact Or.inl ⟨rfl, hx, hid, hne⟩
    · exact Or.inr ⟨rfl, hx, hid, hne⟩
  · intro h
    rcases h with ⟨rfl, hx, hid, hne⟩ | ⟨rfl, hx, hid, hne⟩
    · exact Or.inl ⟨b, ⟨hx, hid, hne⟩, rfl, rfl⟩
    · exact Or.inr ⟨a, ⟨hx, hid, hne⟩, rfl, rfl⟩

theorem edge_normalized {b : String} :
    Edge (normalizedDependencyGraph tasks) a b
      ↔ ∃ t ∈ tasks, (a, b) ∈ namedEdges (taskIds tasks) t := by
  unfold Edge normalizedDependencyGraph
  rw [List.mem_dedup, List.mem_flatMap]

theorem blocks_of_edge {part : List TaskListEntry} (h : Linked tasks)
    (hsub : ∀ t ∈ part, t ∈ tasks) {b : String}
    (hab : Edge (normalizedDependencyGraph part) a b) : Blocks part a b := by
  obtain ⟨t, ht, hmem⟩ := edge_normalized.1 hab
  rcases mem_namedEdges.1 hmem with ⟨rfl, hb, -, -⟩ | ⟨rfl, ha, hid, -⟩
  · exact ⟨t, ht, rfl, hb⟩
  · obtain ⟨u, hu, rfl⟩ := List.mem_map.1 hid
    exact ⟨u, hu, rfl, (h.symmetric u (hsub u hu) t (hsub t ht)).2 ha⟩

theorem dag_normalized {part : List TaskListEntry} (h : Linked tasks)
    (hsub : ∀ t ∈ part, t ∈ tasks) :
    Dag (taskIds part) (normalizedDependencyGraph part) := by
  refine ⟨List.nodup_dedup _, ?_, ?_⟩
  · intro a b hab
    obtain ⟨t, ht, hmem⟩ := edge_normalized.1 hab
    rcases mem_namedEdges.1 hmem with ⟨rfl, -, hid, -⟩ | ⟨rfl, -, hid, -⟩
    · exact ⟨mem_taskIds ht, hid⟩
    · exact ⟨hid, mem_taskIds ht⟩
  · apply h.acyclic.mono
    intro a b hab
    obtain ⟨t, ht, hid, hmem⟩ := blocks_of_edge h hsub hab
    exact ⟨t, hsub t ht, hid, hmem⟩

theorem mem_predecessors_normalized (h : Linked tasks) (ht : t ∈ tasks) :
    a ∈ predecessors (normalizedDependencyGraph tasks) t.taskId
      ↔ a ∈ t.blockedBy := by
  rw [mem_predecessors]
  constructor
  · intro hedge
    obtain ⟨u, hu, rfl, hmem⟩ := blocks_of_edge h (fun _ h => h) hedge
    exact (h.symmetric u hu t ht).1 hmem
  · intro hmem
    have hid := h.closed t ht a (Or.inr hmem)
    refine edge_normalized.2 ⟨t, ht, mem_namedEdges.2 (Or.inr ?_)⟩
    refine ⟨rfl, hmem, hid, ?_⟩
    intro heq
    rw [heq] at hmem
    exact h.irrefl ht ((h.symmetric t ht t ht).2 hmem)

-- ==== changing the graph

theorem Dag.insert (h : Dag ids edges) {x y : String} (hx : x ∈ ids)
    (hy : y ∈ ids) (hpath : pathExists edges y x ≠ true) :
    Dag ids (insertEdge edges (x, y)) := by
  refine ⟨nodup_insertEdge h.nodup, ?_, ?_⟩
  · intro a b hab
    rcases edge_insertEdge.1 hab with hab | ⟨rfl, rfl⟩
    · exact h.within a b hab
    · exact ⟨hx, hy⟩
  · have hreach : ¬ Relation.ReflTransGen (Edge edges) y x :=
      fun hr => hpath (pathExists_iff.2 hr)
    apply (h.acyclic.insert hreach).mono
    intro a b hab
    exact edge_insertEdge.1 hab

theorem Dag.insert_of_mem (h : Dag ids edges) {e : String × String}
    (he : e ∈ edges) : Dag ids (insertEdge edges e) := by
  unfold insertEdge
  rw [if_pos he]
  exact h

theorem Dag.erase (h : Dag ids edges) (e : String × String) :
    Dag ids (edges.erase e) := by
  have hsub : ∀ a b, Edge (edges.erase e) a b → Edge edges a b :=
    fun a b hab => List.mem_of_mem_erase hab
  exact ⟨h.nodup.erase e, fun a b hab => h.within a b (hsub a b hab),
    h.acyclic.mono hsub⟩

-- ====== writing tuples

section Relink

variable (ids : List String) (edges : Edges) (at_ : Datetime)
  (t : TaskListEntry)

theorem same_of_not_changes (h : ¬ relinkChanges ids edges t = true) :
    sortedIds ids (successors edges t.taskId) = t.blocks
      ∧ sortedIds ids (predecessors edges t.taskId) = t.blockedBy := by
  unfold relinkChanges at h
  rw [decide_eq_true_eq, not_or, not_not, not_not] at h
  exact h

theorem taskId_relink : (relink ids edges at_ t).taskId = t.taskId := by
  unfold relink
  split <;> rfl

theorem blocks_relink : (relink ids edges at_ t).blocks
    = sortedIds ids (successors edges t.taskId) := by
  unfold relink
  split
  · rfl
  · next hsame => exact (same_of_not_changes ids edges t hsame).1.symm

theorem blockedBy_relink : (relink ids edges at_ t).blockedBy
    = sortedIds ids (predecessors edges t.taskId) := by
  unfold relink
  split
  · rfl
  · next hsame => exact (same_of_not_changes ids edges t hsame).2.symm

theorem relink_eq : ∃ blocks blockedBy updatedAt, relink ids edges at_ t
    = { t with blocks, blockedBy, updatedAt } := by
  unfold relink
  split
  · exact ⟨_, _, _, rfl⟩
  · exact ⟨t.blocks, t.blockedBy, t.updatedAt, rfl⟩

end Relink

theorem taskIds_tasksFromGraph (tasks : List TaskListEntry) (edges : Edges)
    (at_ : Datetime) :
    taskIds (tasksFromGraph tasks edges at_).1 = taskIds tasks := by
  show (tasks.map _).map TaskListEntry.taskId = _
  rw [List.map_map]
  exact List.map_congr_left fun t _ => taskId_relink _ _ _ t

theorem mem_tasksFromGraph {at_ : Datetime} {t' : TaskListEntry}
    (h : t' ∈ (tasksFromGraph tasks edges at_).1) :
    ∃ t ∈ tasks, relink (taskIds tasks) edges at_ t = t' :=
  List.mem_map.1 h

theorem linked_tasksFromGraph (hnodup : (taskIds tasks).Nodup)
    (h : Dag (taskIds tasks) edges) (at_ : Datetime) :
    Linked (tasksFromGraph tasks edges at_).1 := by
  have hids := taskIds_tasksFromGraph tasks edges at_
  have hblocks : ∀ t' ∈ (tasksFromGraph tasks edges at_).1, ∀ x,
      x ∈ t'.blocks ↔ Edge edges t'.taskId x := by
    intro t' ht' x
    obtain ⟨t, -, rfl⟩ := mem_tasksFromGraph ht'
    rw [blocks_relink, taskId_relink, mem_sortedIds, mem_successors]
  have hblockedBy : ∀ t' ∈ (tasksFromGraph tasks edges at_).1, ∀ x,
      x ∈ t'.blockedBy ↔ Edge edges x t'.taskId := by
    intro t' ht' x
    obtain ⟨t, -, rfl⟩ := mem_tasksFromGraph ht'
    rw [blockedBy_relink, taskId_relink, mem_sortedIds, mem_predecessors]
  refine ⟨hids ▸ hnodup, ?_, ?_, ?_, ?_, ?_⟩
  · intro t' ht' x hx
    rw [hids]
    rcases hx with hx | hx
    · exact (h.within _ _ ((hblocks t' ht' x).1 hx)).2
    · exact (h.within _ _ ((hblockedBy t' ht' x).1 hx)).1
  · intro t' ht' u' hu'
    rw [hblocks t' ht', hblockedBy u' hu']
  · intro t' ht'
    obtain ⟨t, -, rfl⟩ := mem_tasksFromGraph ht'
    rw [blocks_relink]
    exact nodup_sortedIds (nodup_successors h.nodup _)
  · intro t' ht'
    obtain ⟨t, -, rfl⟩ := mem_tasksFromGraph ht'
    rw [blockedBy_relink]
    exact nodup_sortedIds (nodup_predecessors h.nodup _)
  · apply h.acyclic.mono
    intro a b hab
    obtain ⟨t', ht', rfl, hmem⟩ := hab
    exact (hblocks t' ht' b).1 hmem

-- ====== the operations

theorem mutate_spec (h : Linked tasks) {listId blocker blocked : String}
    {remove : Bool} {at_ : Datetime} {r : List TaskListEntry × Bool}
    (hr : mutateDependencyGraph tasks listId blocker blocked remove at_
      = .ok r) :
    Linked r.1 ∧ (∃ edges, r = tasksFromGraph tasks edges at_)
      ∧ blocker ∈ taskIds tasks ∧ blocked ∈ taskIds tasks := by
  unfold mutateDependencyGraph at hr
  obtain ⟨i, hi, hr⟩ := bind_eq_ok.1 hr
  obtain ⟨j, hj, hr⟩ := bind_eq_ok.1 hr
  obtain ⟨-, -, hr⟩ := bind_eq_ok.1 hr
  obtain ⟨-, -, hr⟩ := bind_eq_ok.1 hr
  obtain ⟨-, -, hr⟩ := bind_eq_ok.1 hr
  have hblocker : blocker ∈ taskIds tasks := by
    rw [← taskId_of_findTaskIndex hi]
    exact mem_taskIds (List.get_mem _ _)
  have hblocked : blocked ∈ taskIds tasks := by
    rw [← taskId_of_findTaskIndex hj]
    exact mem_taskIds (List.get_mem _ _)
  have hdag := dag_normalized h (fun _ ht => ht)
  cases remove with
  | true =>
    cases hr
    refine ⟨?_, ⟨_, rfl⟩, hblocker, hblocked⟩
    exact linked_tasksFromGraph h.nodup (hdag.erase _) at_
  | false =>
    obtain ⟨_, hguard, hr⟩ := bind_eq_ok.1 hr
    cases hr
    refine ⟨?_, ⟨_, rfl⟩, hblocker, hblocked⟩
    refine linked_tasksFromGraph h.nodup ?_ at_
    by_cases hmem : (blocker, blocked) ∈ normalizedDependencyGraph tasks
    · exact hdag.insert_of_mem hmem
    · have hpath := raiseIf_eq_ok.1 hguard
      exact hdag.insert hblocker hblocked fun hp => hpath ⟨hmem, hp⟩

theorem addOverride_spec {listId other blocker blocked : String}
    {edges' : Edges} (h : Dag (taskIds tasks) edges)
    (hends : other ∈ taskIds tasks →
      blocker ∈ taskIds tasks ∧ blocked ∈ taskIds tasks)
    (hr : addOverride tasks listId other blocker blocked edges
      = .ok edges') : Dag (taskIds tasks) edges' := by
  unfold addOverride at hr
  obtain ⟨i, hi, hr⟩ := bind_eq_ok.1 hr
  obtain ⟨-, -, hr⟩ := bind_eq_ok.1 hr
  obtain ⟨_, hguard, hr⟩ := bind_eq_ok.1 hr
  cases hr
  have hother : other ∈ taskIds tasks := by
    rw [← taskId_of_findTaskIndex hi]
    exact mem_taskIds (List.get_mem _ _)
  obtain ⟨hblocker, hblocked⟩ := hends hother
  have hpath := raiseIf_eq_ok.1 hguard
  exact h.insert hblocker hblocked fun hp => hpath (Or.inr hp)

/-- A batch of overrides adds its edges in turn, keeps them acyclic, and is
a rewrite of the list from them. -/
theorem overrides_spec (h : Linked tasks) {listId taskId : String}
    {blocks blockedBy : PyVal} {at_ : Datetime}
    {r : List TaskListEntry × Bool}
    (hr : applyDependencyOverrides tasks listId taskId blocks blockedBy at_
      = .ok r) :
    ∃ edges edges',
      (coerceStringSequence blocks).foldlM (fun edges other =>
          addOverride tasks listId other taskId other edges)
        (normalizedDependencyGraph tasks) = .ok edges
      ∧ (coerceStringSequence blockedBy).foldlM (fun edges other =>
          addOverride tasks listId other other taskId edges) edges
        = .ok edges'
      ∧ Dag (taskIds tasks) edges' ∧ r = tasksFromGraph tasks edges' at_ := by
  unfold applyDependencyOverrides at hr
  obtain ⟨i, hi, hr⟩ := bind_eq_ok.1 hr
  obtain ⟨-, -, hr⟩ := bind_eq_ok.1 hr
  obtain ⟨edges, hedges, hr⟩ := bind_eq_ok.1 hr
  obtain ⟨edges', hedges', hr⟩ := bind_eq_ok.1 hr
  cases hr
  have hself : taskId ∈ taskIds tasks := by
    rw [← taskId_of_findTaskIndex hi]
    exact mem_taskIds (List.get_mem _ _)
  have hdag := dag_normalized h (fun _ ht => ht)
  have hforward : Dag (taskIds tasks) edges := by
    refine foldlM_invariant ?_ hdag hedges
    intro e blocked e' he hstep
    exact addOverride_spec he (fun hmem => ⟨hself, hmem⟩) hstep
  refine ⟨edges, edges', hedges, hedges', ?_, rfl⟩
  refine foldlM_invariant ?_ hforward hedges'
  intro e blocker e' he hstep
  exact addOverride_spec he (fun hmem => ⟨hmem, hself⟩) hstep

end WeaveRuntime.TaskLists
