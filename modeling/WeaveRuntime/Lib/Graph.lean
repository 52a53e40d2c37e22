/-
Finite directed graphs as edge lists: reachability, a depth-first search
that decides it, and acyclicity under the growth of the edge set.

# The search

`pathExists` is the usual stack loop: pop a node, skip it if it was seen,
otherwise stop when an edge leads to the target and push what its edges
lead to. One pass takes a node off the stack and, where it pushes nodes,
uses up as many unexplored edges, so the stack and the unexplored edges
together shrink by one each time: that is the measure.

Its invariant (`search_complete`) is the frontier argument: whatever is
reachable from a seen node is seen or reachable from the stack, and no
seen node has an edge to the target. Where the stack runs empty the
target is out of reach.

# Growth

An edge `a → b` keeps a graph acyclic when `a` is not reachable from `b`
(`Acyclic.insert`); a subgraph of an acyclic graph is acyclic
(`Acyclic.mono`); and every nonempty list of nodes of an acyclic graph has
a member that no member leads to (`Acyclic.exists_minimal`).
-/
import Mathlib.Logic.Relation
import Mathlib.Data.List.Nodup

namespace WeaveRuntime.Lib.Graph

variable {α : Type u}

-- ========== acyclicity

/-- No node leads back to itself. -/
def Acyclic (r : α → α → Prop) : Prop := ∀ a, ¬ Relation.TransGen r a a

theorem Acyclic.mono {r s : α → α → Prop} (h : Acyclic r)
    (hsub : ∀ a b, s a b → r a b) : Acyclic s := by
  intro a hcycle
  exact h a (Relation.TransGen.mono hsub a a hcycle)

/-- A path that may use one more edge either avoids it, or passes it: it
reaches the edge's source, and goes on from the edge's target. -/
theorem transGen_insert {r : α → α → Prop} {x y a b : α}
    (h : Relation.TransGen (fun u v => r u v ∨ (u = x ∧ v = y)) a b) :
    Relation.TransGen r a b
      ∨ (Relation.ReflTransGen r a x ∧ Relation.ReflTransGen r y b) := by
  induction h with
  | single h =>
    rcases h with h | ⟨rfl, rfl⟩
    · exact Or.inl (.single h)
    · exact Or.inr ⟨.refl, .refl⟩
  | tail _ h ih =>
    rcases h with h | ⟨rfl, rfl⟩
    · rcases ih with ih | ⟨hax, hyb⟩
      · exact Or.inl (ih.tail h)
      · exact Or.inr ⟨hax, hyb.tail h⟩
    · rcases ih with ih | ⟨hax, -⟩
      · exact Or.inr ⟨ih.to_reflTransGen, .refl⟩
      · exact Or.inr ⟨hax, .refl⟩

theorem Acyclic.insert {r : α → α → Prop} (h : Acyclic r) {x y : α}
    (hxy : ¬ Relation.ReflTransGen r y x) :
    Acyclic fun u v => r u v ∨ (u = x ∧ v = y) := by
  intro a hcycle
  rcases transGen_insert hcycle with hold | ⟨hax, hya⟩
  · exact h a hold
  · exact hxy (hya.trans hax)

/-- Some member of a nonempty list is reached from no member. -/
theorem Acyclic.exists_minimal {r : α → α → Prop} (h : Acyclic r) {l : List α}
    (hne : l ≠ []) : ∃ a ∈ l, ∀ b ∈ l, ¬ Relation.TransGen r b a := by
  induction l with
  | nil => exact absurd rfl hne
  | cons c l ih =>
    by_cases hl : l = []
    · subst hl
      refine ⟨c, List.mem_cons_self .., ?_⟩
      intro b hb
      rw [List.mem_singleton.1 hb]
      exact h c
    · obtain ⟨a, ha, hmin⟩ := ih hl
      by_cases hca : Relation.TransGen r c a
      · -- the head comes before the minimum of the rest
        refine ⟨c, List.mem_cons_self .., ?_⟩
        intro b hb hbc
        rcases List.mem_cons.1 hb with rfl | hb
        · exact h b hbc
        · exact hmin b hb (hbc.trans hca)
      · refine ⟨a, List.mem_cons_of_mem _ ha, ?_⟩
        intro b hb
        rcases List.mem_cons.1 hb with rfl | hb
        · exact hca
        · exact hmin b hb

-- ========== the search

section Search

variable [DecidableEq α]

/-- What the edges from a node lead to. -/
def successors (edges : List (α × α)) (a : α) : List α :=
  (edges.filter fun e => e.1 = a).map Prod.snd

def Edge (edges : List (α × α)) (a b : α) : Prop := (a, b) ∈ edges

theorem mem_successors {edges : List (α × α)} {a b : α} :
    b ∈ successors edges a ↔ Edge edges a b := by
  unfold successors Edge
  rw [List.mem_map]
  constructor
  · intro h
    obtain ⟨e, he, rfl⟩ := h
    rw [List.mem_filter, decide_eq_true_eq] at he
    obtain ⟨hmem, rfl⟩ := he
    exact hmem
  · intro h
    refine ⟨(a, b), ?_, rfl⟩
    rw [List.mem_filter]
    exact ⟨h, by simp⟩

/-- What has an edge to a node. -/
def predecessors (edges : List (α × α)) (b : α) : List α :=
  (edges.filter fun e => e.2 = b).map Prod.fst

theorem mem_predecessors {edges : List (α × α)} {a b : α} :
    a ∈ predecessors edges b ↔ Edge edges a b := by
  unfold predecessors Edge
  rw [List.mem_map]
  constructor
  · intro h
    obtain ⟨e, he, rfl⟩ := h
    rw [List.mem_filter, decide_eq_true_eq] at he
    obtain ⟨hmem, rfl⟩ := he
    exact hmem
  · intro h
    refine ⟨(a, b), ?_, rfl⟩
    rw [List.mem_filter]
    exact ⟨h, by simp⟩

theorem nodup_successors {edges : List (α × α)} (h : edges.Nodup) (a : α) :
    (successors edges a).Nodup := by
  refine List.Nodup.map_on ?_ (h.filter _)
  intro e he e' he' heq
  rw [List.mem_filter, decide_eq_true_eq] at he he'
  exact Prod.ext (he.2.trans he'.2.symm) heq

theorem nodup_predecessors {edges : List (α × α)} (h : edges.Nodup) (b : α) :
    (predecessors edges b).Nodup := by
  refine List.Nodup.map_on ?_ (h.filter _)
  intro e he e' he' heq
  rw [List.mem_filter, decide_eq_true_eq] at he he'
  exact Prod.ext heq (he.2.trans he'.2.symm)

/-- Add an edge, once. -/
def insertEdge (edges : List (α × α)) (e : α × α) : List (α × α) :=
  if e ∈ edges then edges else edges ++ [e]

theorem edge_insertEdge {edges : List (α × α)} {x y a b : α} :
    Edge (insertEdge edges (x, y)) a b
      ↔ Edge edges a b ∨ (a = x ∧ b = y) := by
  unfold insertEdge Edge
  split
  · next hmem =>
    constructor
    · exact Or.inl
    · intro h
      rcases h with h | ⟨rfl, rfl⟩
      · exact h
      · exact hmem
  · rw [List.mem_append, List.mem_singleton, Prod.mk.injEq]

theorem nodup_insertEdge {edges : List (α × α)} {e : α × α}
    (h : edges.Nodup) : (insertEdge edges e).Nodup := by
  unfold insertEdge
  split
  · exact h
  · next hmem =>
    refine List.nodup_append.2 ⟨h, List.nodup_singleton e, ?_⟩
    intro a ha b hb hab
    rw [List.mem_singleton.1 hb] at hab
    exact hmem (hab ▸ ha)

/-- The edges whose source has not been seen. -/
def unexplored (edges : List (α × α)) (seen : List α) : List (α × α) :=
  edges.filter fun e => e.1 ∉ seen

theorem length_unexplored {edges : List (α × α)} {seen : List α} {a : α}
    (ha : a ∉ seen) :
    (unexplored edges (a :: seen)).length + (successors edges a).length
      = (unexplored edges seen).length := by
  unfold unexplored successors
  rw [List.length_map]
  induction edges with
  | nil => rfl
  | cons e edges ih =>
    by_cases hea : e.1 = a
    · have hseen : e.1 ∉ seen := by
        rw [hea]
        exact ha
      simp only [List.filter_cons, hea, List.mem_cons, true_or,
        not_true_eq_false, decide_false, Bool.false_eq_true, if_false,
        decide_true, if_true, List.length_cons, ha, not_false_eq_true] at ih ⊢
      omega
    · by_cases hseen : e.1 ∈ seen
      · simp only [List.filter_cons, hea, List.mem_cons, hseen, or_true,
          not_true_eq_false, decide_false, Bool.false_eq_true,
          if_false] at ih ⊢
        exact ih
      · simp only [List.filter_cons, hea, List.mem_cons, hseen, or_self,
          not_false_eq_true, decide_true, if_true, decide_false,
          Bool.false_eq_true, if_false, List.length_cons] at ih ⊢
        omega

/-- The stack loop: whether an edge from a node reachable from the stack
leads to the target. -/
def search (edges : List (α × α)) (target : α) (seen stack : List α) :
    Bool :=
  match stack with
  | [] => false
  | current :: stack =>
    if _h : current ∈ seen then search edges target seen stack
    else if target ∈ successors edges current then true
    else search edges target (current :: seen)
      ((successors edges current).reverse ++ stack)
termination_by (unexplored edges seen).length + stack.length
decreasing_by
  · simp only [List.length_cons]
    omega
  · have := @length_unexplored _ _ edges _ _ _h
    simp only [List.length_append, List.length_reverse, List.length_cons]
    omega

/-- Whether the target is the start or reachable from it. -/
def pathExists (edges : List (α × α)) (start target : α) : Bool :=
  if start = target then true else search edges target [] [start]

variable {edges : List (α × α)} {target : α}

theorem search_sound {seen stack : List α}
    (h : search edges target seen stack = true) :
    ∃ x ∈ stack, Relation.TransGen (Edge edges) x target := by
  induction seen, stack using search.induct edges target with
  | case1 seen =>
    rw [search] at h
    cases h
  | case2 seen current stack hseen ih =>
    rw [search, dif_pos hseen] at h
    obtain ⟨x, hx, hpath⟩ := ih h
    exact ⟨x, List.mem_cons_of_mem _ hx, hpath⟩
  | case3 seen current stack hseen htarget =>
    exact ⟨current, List.mem_cons_self ..,
      .single (mem_successors.1 htarget)⟩
  | case4 seen current stack hseen htarget ih =>
    rw [search, dif_neg hseen, if_neg htarget] at h
    obtain ⟨x, hx, hpath⟩ := ih h
    rcases List.mem_append.1 hx with hx | hx
    · have hedge : Edge edges current x :=
        mem_successors.1 (List.mem_reverse.1 hx)
      exact ⟨current, List.mem_cons_self .., .head hedge hpath⟩
    · exact ⟨x, List.mem_cons_of_mem _ hx, hpath⟩

/-- What the frontier separates: edges from seen nodes lead to seen nodes
or onto the stack, and none leads to the target. -/
def Frontier (edges : List (α × α)) (target : α) (seen stack : List α) :
    Prop :=
  ∀ a ∈ seen, ∀ b, Edge edges a b → b ≠ target ∧ (b ∈ seen ∨ b ∈ stack)

theorem search_complete {seen stack : List α}
    (hfront : Frontier edges target seen stack)
    (h : search edges target seen stack = false) :
    ∀ x, x ∈ seen ∨ x ∈ stack →
      ¬ Relation.TransGen (Edge edges) x target := by
  induction seen, stack using search.induct edges target with
  | case1 seen =>
    -- the seen nodes are closed under edges, and the target is not seen
    intro x hx hpath
    have hclosed : ∀ y, Relation.ReflTransGen (Edge edges) x y →
        y ∈ seen := by
      intro y hy
      induction hy with
      | refl => simpa using hx
      | tail _ hedge ih =>
        rcases (hfront _ ih _ hedge).2 with h' | h'
        · exact h'
        · cases h'
    obtain ⟨y, hy, hedge⟩ := Relation.TransGen.tail'_iff.1 hpath
    exact (hfront y (hclosed y hy) target hedge).1 rfl
  | case2 seen current stack hseen ih =>
    rw [search, dif_pos hseen] at h
    have hfront' : Frontier edges target seen stack := by
      intro a ha b hb
      obtain ⟨hne, hmem⟩ := hfront a ha b hb
      refine ⟨hne, ?_⟩
      rcases hmem with hmem | hmem
      · exact Or.inl hmem
      · rcases List.mem_cons.1 hmem with rfl | hmem
        · exact Or.inl hseen
        · exact Or.inr hmem
    intro x hx
    refine ih hfront' h x ?_
    rcases hx with hx | hx
    · exact Or.inl hx
    · rcases List.mem_cons.1 hx with rfl | hx
      · exact Or.inl hseen
      · exact Or.inr hx
  | case3 seen current stack hseen htarget =>
    rw [search, dif_neg hseen, if_pos htarget] at h
    cases h
  | case4 seen current stack hseen htarget ih =>
    rw [search, dif_neg hseen, if_neg htarget] at h
    have hfront' : Frontier edges target (current :: seen)
        ((successors edges current).reverse ++ stack) := by
      intro a ha b hb
      rw [List.mem_cons, List.mem_append, List.mem_reverse]
      rcases List.mem_cons.1 ha with rfl | ha
      · have hsucc := mem_successors.2 hb
        refine ⟨?_, Or.inr (Or.inl hsucc)⟩
        intro hbt
        rw [hbt] at hsucc
        exact htarget hsucc
      · obtain ⟨hne, hmem⟩ := hfront a ha b hb
        refine ⟨hne, ?_⟩
        rcases hmem with hmem | hmem
        · exact Or.inl (Or.inr hmem)
        · rcases List.mem_cons.1 hmem with rfl | hmem
          · exact Or.inl (Or.inl rfl)
          · exact Or.inr (Or.inr hmem)
    intro x hx
    refine ih hfront' h x ?_
    rw [List.mem_cons, List.mem_append]
    rcases hx with hx | hx
    · exact Or.inl (Or.inr hx)
    · rcases List.mem_cons.1 hx with rfl | hx
      · exact Or.inl (Or.inl rfl)
      · exact Or.inr (Or.inr hx)

/-- The search decides reachability. -/
theorem pathExists_iff {start : α} :
    pathExists edges start target = true
      ↔ Relation.ReflTransGen (Edge edges) start target := by
  unfold pathExists
  by_cases hst : start = target
  · rw [if_pos hst, hst]
    exact ⟨fun _ => .refl, fun _ => rfl⟩
  · rw [if_neg hst]
    constructor
    · intro h
      obtain ⟨x, hx, hpath⟩ := search_sound h
      rw [List.mem_singleton] at hx
      rw [← hx]
      exact hpath.to_reflTransGen
    · intro hpath
      rcases Relation.reflTransGen_iff_eq_or_transGen.1 hpath with heq | hpath
      · exact absurd heq.symm hst
      · by_contra hnot
        have hfalse : search edges target [] [start] = false := by
          simpa using hnot
        have hfront : Frontier edges target [] [start] := by
          intro a ha
          cases ha
        exact search_complete hfront hfalse start
          (Or.inr (List.mem_cons_self ..)) hpath

end Search

end WeaveRuntime.Lib.Graph
