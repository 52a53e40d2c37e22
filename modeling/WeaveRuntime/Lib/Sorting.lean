/-
Sorted lists, by two orders.

`find?_insertionSort` says what a search in a sorted list finds: the least
of the elements that are looked for. `insertionSort_filter_eq_iff` says
when two sortings of one list by different orders list the same elements
in the same order: when the orders agree on what is listed.

Elements are told apart by a key, as records are by their id.
-/
import Mathlib.Data.List.Sort

namespace WeaveRuntime.Lib.Sorting

universe u v

variable {α : Type u} {κ : Type v} {key : α → κ} {l : List α}
  {r s : α → α → Prop}

/-- An order that tells elements of `l` with different keys apart, and a
key that tells the elements of `l` apart. -/
structure Keyed (key : α → κ) (l : List α) (r : α → α → Prop) : Prop where
  injective : ∀ a ∈ l, ∀ b ∈ l, key a = key b → a = b
  antisymm : ∀ a ∈ l, ∀ b ∈ l, r a b → r b a → key a = key b

theorem Keyed.eq (h : Keyed key l r) {a b : α} (ha : a ∈ l) (hb : b ∈ l)
    (hab : r a b) (hba : r b a) : a = b :=
  h.injective a ha b hb (h.antisymm a ha b hb hab hba)

theorem eq_of_map_eq {as bs : List α} (heq : bs.map key = as.map key)
    (h : ∀ a ∈ as, ∀ b ∈ bs, key b = key a → b = a) : bs = as := by
  induction bs generalizing as with
  | nil => exact (List.map_eq_nil_iff.1 heq.symm).symm
  | cons b bs ih =>
    cases as with
    | nil => cases heq
    | cons a as =>
      rw [List.map_cons, List.map_cons, List.cons.injEq] at heq
      have hhead : b = a :=
        h a (List.mem_cons_self ..) b (List.mem_cons_self ..) heq.1
      have htail : bs = as := ih heq.2 fun a' ha' b' hb' =>
        h a' (List.mem_cons_of_mem _ ha') b' (List.mem_cons_of_mem _ hb')
      rw [hhead, htail]

theorem pairwise_cases {R : α → α → Prop} {as : List α} (h : as.Pairwise R)
    {a b : α} (ha : a ∈ as) (hb : b ∈ as) : a = b ∨ R a b ∨ R b a := by
  induction as with
  | nil => cases ha
  | cons c as ih =>
    rw [List.pairwise_cons] at h
    rcases List.mem_cons.1 ha with rfl | ha'
    · rcases List.mem_cons.1 hb with rfl | hb'
      · exact Or.inl rfl
      · exact Or.inr (Or.inl (h.1 b hb'))
    · rcases List.mem_cons.1 hb with rfl | hb'
      · exact Or.inr (Or.inr (h.1 a ha'))
      · exact ih h.2 ha' hb'

variable [DecidableRel r] [Std.Total r] [IsTrans α r]

theorem find?_insertionSort (h : Keyed key l r) {p : α → Bool} {a : α} :
    (l.insertionSort r).find? p = some a
      ↔ a ∈ l ∧ p a = true ∧ ∀ b ∈ l, p b = true → r a b := by
  have hsorted := List.pairwise_insertionSort r l
  have hmem : ∀ b, b ∈ l.insertionSort r ↔ b ∈ l :=
    fun b => List.mem_insertionSort r
  generalize l.insertionSort r = sorted at *
  have hleast : ∀ c, sorted.find? p = some c →
      ∀ b ∈ sorted, p b = true → r c b := by
    intro c hc b hb hpb
    rw [List.find?_eq_some_iff_append] at hc
    obtain ⟨-, before, after, heq, hnone⟩ := hc
    rw [heq, List.mem_append, List.mem_cons] at hb
    rcases hb with hb | rfl | hb
    · exact absurd hpb (by simpa using hnone b hb)
    · exact (Std.Total.total (r := r) b b).elim id id
    · rw [heq, List.pairwise_append, List.pairwise_cons] at hsorted
      exact hsorted.2.1.1 b hb
  refine ⟨fun hfind => ?_, fun hleastA => ?_⟩
  · refine ⟨(hmem a).1 (List.mem_of_find?_eq_some hfind),
      List.find?_some hfind, fun b hb hpb => ?_⟩
    exact hleast a hfind b ((hmem b).2 hb) hpb
  · obtain ⟨ha, hpa, hall⟩ := hleastA
    cases hfind : sorted.find? p with
    | none =>
      exact absurd hpa
        (by simpa using List.find?_eq_none.1 hfind a ((hmem a).2 ha))
    | some c =>
      have hc := (hmem c).1 (List.mem_of_find?_eq_some hfind)
      have hca := hleast c hfind a ((hmem a).2 ha) hpa
      have hac := hall c hc (List.find?_some hfind)
      rw [h.eq hc ha hca hac]

variable [DecidableRel s] [Std.Total s] [IsTrans α s]

/-- Searches in two sortings of one list, one with a function applied that
keeps the keys, find the same exactly when what is first by the one order
is first by the other, and the function leaves it alone. -/
theorem find?_insertionSort_eq_iff (hr : Keyed key l r) (hs : Keyed key l s)
    {p : α → Bool} {f : α → α} (hf : ∀ a, key (f a) = key a) :
    ((l.insertionSort s).find? p).map f = (l.insertionSort r).find? p
      ↔ ∀ a ∈ l, p a = true → (∀ b ∈ l, p b = true → s a b) →
        f a = a ∧ ∀ b ∈ l, p b = true → r a b := by
  cases hfindS : (l.insertionSort s).find? p with
  | none =>
    have hnone : ∀ a ∈ l, ¬ p a = true := fun a ha =>
      List.find?_eq_none.1 hfindS a ((List.mem_insertionSort s).2 ha)
    refine iff_of_true ?_ fun a ha hpa => absurd hpa (hnone a ha)
    refine (List.find?_eq_none.2 fun a ha => ?_).symm
    exact hnone a ((List.mem_insertionSort r).1 ha)
  | some a =>
    obtain ⟨ha, hpa, hleast⟩ := (find?_insertionSort hs).1 hfindS
    rw [Option.map_some]
    refine ⟨fun heq b hb hpb hleastB => ?_, fun hall => ?_⟩
    · obtain ⟨hc, hpc, hleastR⟩ := (find?_insertionSort hr).1 heq.symm
      have hfa : f a = a := hr.injective _ hc _ ha (hf a)
      have hba : b = a := hs.eq hb ha (hleastB a ha hpa) (hleast b hb hpb)
      rw [hba]
      rw [hfa] at hleastR
      exact ⟨hfa, hleastR⟩
    · obtain ⟨hfa, hleastR⟩ := hall a ha hpa hleast
      rw [hfa]
      exact ((find?_insertionSort hr).2 ⟨ha, hpa, hleastR⟩).symm

/-- Two sortings of one list, the second with a function applied that
keeps the keys, list the same exactly when the function changes nothing
listed and the orders agree on what is listed. -/
theorem insertionSort_filter_eq_iff (hr : Keyed key l r) (hs : Keyed key l s)
    {p : α → Bool} {f : α → α} (hf : ∀ a, key (f a) = key a) :
    ((l.insertionSort s).filter p).map f = (l.insertionSort r).filter p
      ↔ (∀ a ∈ l, p a = true → f a = a)
        ∧ ∀ a ∈ l, ∀ b ∈ l, p a = true → p b = true → s a b → r a b := by
  have hperm : ((l.insertionSort s).filter p).Perm
      ((l.insertionSort r).filter p) :=
    ((List.perm_insertionSort s l).trans
      (List.perm_insertionSort r l).symm).filter p
  have hmem : ∀ a, a ∈ (l.insertionSort s).filter p
      ↔ a ∈ l ∧ p a = true := by
    intro a
    rw [List.mem_filter, List.mem_insertionSort]
  have hmemr : ∀ a, a ∈ (l.insertionSort r).filter p
      ↔ a ∈ l ∧ p a = true := by
    intro a
    rw [List.mem_filter, List.mem_insertionSort]
  have hsortedS := (List.pairwise_insertionSort s l).filter p
  have hsortedR := (List.pairwise_insertionSort r l).filter p
  generalize (l.insertionSort s).filter p = bs at *
  generalize (l.insertionSort r).filter p = as at *
  refine ⟨fun heq => ?_, fun hboth => ?_⟩
  · -- the keys are the same in order, so the elements are
    have hkeys : bs.map key = as.map key := by
      rw [← heq, List.map_map]
      exact List.map_congr_left fun a _ => (hf a).symm
    have hsame : bs = as := by
      refine eq_of_map_eq hkeys fun a ha b hb hab => ?_
      exact hr.injective b ((hmem b).1 hb).1 a ((hmemr a).1 ha).1 hab
    subst hsame
    refine ⟨fun a ha hpa => ?_, fun a ha b hb hpa hpb hab => ?_⟩
    · exact List.map_inj_left.1 (heq.trans (List.map_id _).symm) a
        ((hmem a).2 ⟨ha, hpa⟩)
    · rcases pairwise_cases (hsortedS.and hsortedR) ((hmem a).2 ⟨ha, hpa⟩)
        ((hmem b).2 ⟨hb, hpb⟩) with rfl | hboth | hboth
      · exact (Std.Total.total (r := r) a a).elim id id
      · exact hboth.2
      · -- `b` comes first, so the two are one
        rw [hs.eq ha hb hab hboth.1]
        exact (Std.Total.total (r := r) b b).elim id id
  · obtain ⟨hfix, horder⟩ := hboth
    have hanti : ∀ a b, a ∈ bs → b ∈ as → r a b → r b a → a = b :=
      fun a b ha hb hab hba =>
        hr.eq ((hmem a).1 ha).1 ((hmemr b).1 hb).1 hab hba
    have hsame : bs = as := by
      refine List.Perm.eq_of_pairwise hanti ?_ hsortedR hperm
      · refine hsortedS.imp_of_mem ?_
        intro a b ha hb hab
        exact horder a ((hmem a).1 ha).1 b ((hmem b).1 hb).1
          ((hmem a).1 ha).2 ((hmem b).1 hb).2 hab
    rw [hsame] at hmem ⊢
    refine (List.map_congr_left fun a ha => ?_).trans (List.map_id _)
    exact hfix a ((hmem a).1 ha).1 ((hmem a).1 ha).2

end WeaveRuntime.Lib.Sorting
