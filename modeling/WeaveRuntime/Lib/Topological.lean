/-
Topological lists: every element comes after the elements it needs.

A depth-first walk that lists an element when it is done with it lists it
after what it needs, whatever else it lists in between; so the lists are
built by `Topological.concat` alone. A list of this kind is its own proof
that the relation has no cycle on it (`Topological.idxOf_lt`).
-/
import Mathlib.Data.List.Basic

namespace WeaveRuntime.Lib

variable {α : Type u}

/-- What an element needs is listed before it. -/
def Topological (needs : α → α → Prop) (l : List α) : Prop :=
  ∀ before a after, l = before ++ a :: after →
    ∀ b, needs a b → b ∈ before

variable {l : List α} {needs : α → α → Prop}

theorem topological_nil : Topological needs [] := by
  intro before a after h
  simp at h

theorem Topological.concat {a : α} (h : Topological needs l)
    (ha : ∀ b, needs a b → b ∈ l) : Topological needs (l ++ [a]) := by
  intro before x after heq b hb
  rcases List.eq_nil_or_concat after with rfl | ⟨after', y, rfl⟩
  · -- the new element
    have hlast := List.append_inj' heq rfl
    rw [List.singleton_inj] at hlast
    rw [← hlast.2] at hb
    rw [← hlast.1]
    exact ha b hb
  · have hinit : l = before ++ x :: after' := by
      rw [List.concat_eq_append, ← List.cons_append,
        ← List.append_assoc] at heq
      exact (List.append_inj' heq rfl).1
    exact h before x after' hinit b hb

theorem Topological.congr {needs' : α → α → Prop} (h : Topological needs l)
    (hsub : ∀ a ∈ l, ∀ b, needs' a b → needs a b) : Topological needs' l := by
  intro before a after heq b hb
  refine h before a after heq b (hsub a ?_ b hb)
  rw [heq]
  exact List.mem_append_right _ List.mem_cons_self

theorem Topological.mem {a b : α} (h : Topological needs l) (ha : a ∈ l)
    (hb : needs a b) : b ∈ l := by
  obtain ⟨before, after, rfl⟩ := List.append_of_mem ha
  exact List.mem_append_left _ (h before a after rfl b hb)

variable [DecidableEq α]

theorem Topological.idxOf_lt {a b : α} (h : Topological needs l) (ha : a ∈ l)
    (hb : needs a b) : l.idxOf b < l.idxOf a := by
  obtain ⟨before, after, heq, hnot⟩ := List.eq_append_cons_of_mem ha
  have hbefore : b ∈ before := h before a after heq b hb
  rw [heq, List.idxOf_append_of_mem hbefore,
    List.idxOf_append_of_notMem hnot, List.idxOf_cons_self]
  have hlt := List.idxOf_lt_length_of_mem hbefore
  omega

end WeaveRuntime.Lib
