/-
Association lists in key order: the canonical form of a mapping whose
order nobody can observe.

Two mappings with the same items have the same sorted list of items, so
a mapping kept this way is compared by plain equality. `set` writes one
key, `ofList` builds the mapping of a list of items, of which the last
one for a key wins. A list that is already in key order is its own
mapping (`ofList_of_sorted`): that is what makes the form canonical.
-/
import Mathlib.Data.List.Sort

namespace WeaveRuntime.Lib

namespace SortedMap

variable {κ : Type u} {ν : Type v}

/-- In strict key order. -/
def Sorted [LT κ] (l : List (κ × ν)) : Prop :=
  l.Pairwise fun a b => a.1 < b.1

/-- The value at a key. -/
def get? [DecidableEq κ] (l : List (κ × ν)) (k : κ) : Option ν :=
  (l.find? fun e => e.1 = k).map Prod.snd

section Order

variable [LinearOrder κ]

/-- Write a key. -/
def set : List (κ × ν) → κ → ν → List (κ × ν)
  | [], k, v => [(k, v)]
  | e :: l, k, v =>
    if k < e.1 then (k, v) :: e :: l
    else if k = e.1 then (k, v) :: l
    else e :: set l k v

/-- The mapping of a list of items; the last item for a key wins. -/
def ofList (items : List (κ × ν)) : List (κ × ν) :=
  items.foldl (fun acc e => set acc e.1 e.2) []

variable {l : List (κ × ν)} {k k' : κ} {v : ν} {e : κ × ν}

theorem mem_set (h : e ∈ set l k v) : e = (k, v) ∨ e ∈ l := by
  induction l with
  | nil => exact Or.inl (List.mem_singleton.1 h)
  | cons x l ih =>
    rw [set] at h
    split at h
    · exact List.mem_cons.1 h
    · split at h
      · rcases List.mem_cons.1 h with h | h
        · exact Or.inl h
        · exact Or.inr (List.mem_cons_of_mem _ h)
      · rcases List.mem_cons.1 h with h | h
        · exact Or.inr (List.mem_cons.2 (Or.inl h))
        · rcases ih h with h | h
          · exact Or.inl h
          · exact Or.inr (List.mem_cons_of_mem _ h)

theorem find?_of_mem [DecidableEq κ] (h : Sorted l) (he : e ∈ l) :
    l.find? (fun x => x.1 = e.1) = some e := by
  induction l with
  | nil => cases he
  | cons x l ih =>
    obtain ⟨hx, hl⟩ := List.pairwise_cons.1 h
    rcases List.mem_cons.1 he with rfl | he
    · exact List.find?_cons_of_pos (by simp)
    · rw [List.find?_cons_of_neg (by simpa using ne_of_lt (hx e he)),
        ih hl he]

theorem sorted_set (h : Sorted l) : Sorted (set l k v) := by
  induction l with
  | nil => exact List.pairwise_singleton ..
  | cons x l ih =>
    obtain ⟨hx, hl⟩ := List.pairwise_cons.1 h
    rw [set]
    split
    · next hlt =>
      refine List.pairwise_cons.2 ⟨?_, h⟩
      intro b hb
      rcases List.mem_cons.1 hb with rfl | hb
      · exact hlt
      · exact lt_trans hlt (hx b hb)
    · next hle =>
      split
      · next heq =>
        refine List.pairwise_cons.2 ⟨?_, hl⟩
        intro b hb
        show k < b.1
        rw [heq]
        exact hx b hb
      · next hne =>
        refine List.pairwise_cons.2 ⟨?_, ih hl⟩
        intro b hb
        rcases mem_set hb with rfl | hb
        · exact lt_of_le_of_ne (not_lt.1 hle) (Ne.symm hne)
        · exact hx b hb

theorem set_append (h : ∀ x ∈ l, x.1 < k) : set l k v = l ++ [(k, v)] := by
  induction l with
  | nil => rfl
  | cons x l ih =>
    have hx : x.1 < k := h x (List.mem_cons_self ..)
    rw [set, if_neg (not_lt_of_gt hx), if_neg (ne_of_gt hx),
      ih fun y hy => h y (List.mem_cons_of_mem _ hy), List.cons_append]

theorem get?_set (l : List (κ × ν)) (k k' : κ) (v : ν) :
    get? (set l k v) k' = if k' = k then some v else get? l k' := by
  induction l with
  | nil =>
    by_cases h : k' = k
    · simp [set, get?, h]
    · simp [set, get?, h, Ne.symm h]
  | cons x l ih =>
    have hcons : ∀ (y : κ × ν) (m : List (κ × ν)),
        get? (y :: m) k' = if y.1 = k' then some y.2 else get? m k' := by
      intro y m
      unfold get?
      rw [List.find?_cons]
      by_cases hy : y.1 = k'
      · simp [hy]
      · simp [hy]
    rw [set]
    split
    · rw [hcons]
      by_cases h : k' = k
      · simp [h]
      · simp [h, Ne.symm h]
    · split
      · next heq =>
        rw [hcons, hcons]
        by_cases h : k' = k
        · simp [h]
        · simp [h, Ne.symm h, ← heq]
      · next hne =>
        rw [hcons, hcons, ih]
        by_cases h : k' = k
        · subst h
          simp [Ne.symm hne]
        · simp [h]

variable {acc items : List (κ × ν)}

theorem foldl_set_sorted (h : Sorted acc) :
    Sorted (items.foldl (fun acc e => set acc e.1 e.2) acc) := by
  induction items generalizing acc with
  | nil => exact h
  | cons x items ih => exact ih (sorted_set h)

theorem foldl_set_mem (h : e ∈ items.foldl (fun acc e => set acc e.1 e.2) acc)
    :
    e ∈ items ∨ e ∈ acc := by
  induction items generalizing acc with
  | nil => exact Or.inr h
  | cons x items ih =>
    rcases ih h with h | h
    · exact Or.inl (List.mem_cons_of_mem _ h)
    · rcases mem_set h with rfl | h
      · exact Or.inl (List.mem_cons_self ..)
      · exact Or.inr h

theorem foldl_set_append (h : Sorted (acc ++ items)) :
    items.foldl (fun acc e => set acc e.1 e.2) acc = acc ++ items := by
  induction items generalizing acc with
  | nil => rw [List.foldl_nil, List.append_nil]
  | cons x items ih =>
    have hlt : ∀ y ∈ acc, y.1 < x.1 := by
      intro y hy
      exact (List.pairwise_append.1 h).2.2 y hy x (List.mem_cons_self ..)
    have hcut : acc ++ x :: items = acc ++ [x] ++ items := by simp
    rw [List.foldl_cons, set_append hlt]
    rw [hcut] at h ⊢
    exact ih h

theorem sorted_ofList (items : List (κ × ν)) : Sorted (ofList items) :=
  foldl_set_sorted List.Pairwise.nil

theorem mem_of_mem_ofList (h : e ∈ ofList items) : e ∈ items := by
  rcases foldl_set_mem h with h | h
  · exact h
  · cases h

theorem ofList_of_sorted (h : Sorted l) : ofList l = l :=
  foldl_set_append h

theorem get?_ofList (h : (items.map Prod.fst).Nodup) (k : κ) :
    get? (ofList items) k = get? items k := by
  have hfold : ∀ (items acc : List (κ × ν)),
      (items.map Prod.fst).Nodup →
      get? (items.foldl (fun acc e => set acc e.1 e.2) acc) k
        = (get? items k).or (get? acc k) := by
    intro items
    induction items with
    | nil =>
      intro acc _
      rfl
    | cons x items ih =>
      intro acc hnodup
      obtain ⟨hx, hitems⟩ := List.nodup_cons.1 hnodup
      rw [List.foldl_cons, ih _ hitems, get?_set]
      by_cases hk : k = x.1
      · have hnone : get? items k = none := by
          unfold get?
          rw [Option.map_eq_none_iff, List.find?_eq_none]
          intro y hy
          have hne : y.1 ≠ x.1 := fun he =>
            hx (he ▸ List.mem_map_of_mem hy)
          simpa [hk] using hne
        have hsome : get? (x :: items) k = some x.2 := by
          simp [get?, hk]
        rw [hnone, hsome, if_pos hk]
        rfl
      · have hskip : get? (x :: items) k = get? items k := by
          simp [get?, Ne.symm hk]
        rw [if_neg hk, hskip]
  have hall := hfold items [] h
  rw [show get? ([] : List (κ × ν)) k = none from rfl, Option.or_none] at hall
  exact hall

end Order

end SortedMap

/-- A mapping in canonical form. -/
structure SortedMap (κ : Type u) (ν : Type v) [LinearOrder κ] where
  entries : List (κ × ν)
  sorted : SortedMap.Sorted entries

namespace SortedMap

variable {κ : Type u} {ν : Type v} [LinearOrder κ]

/-- The mapping of a list of items. -/
def build (items : List (κ × ν)) : SortedMap κ ν :=
  ⟨ofList items, sorted_ofList items⟩

def update (m : SortedMap κ ν) (items : List (κ × ν)) : SortedMap κ ν :=
  ⟨items.foldl (fun acc e => set acc e.1 e.2) m.entries,
    foldl_set_sorted m.sorted⟩

theorem mem_update {m : SortedMap κ ν} {items : List (κ × ν)} {e : κ × ν}
    (h : e ∈ (m.update items).entries) : e ∈ items ∨ e ∈ m.entries :=
  foldl_set_mem h

theorem build_entries (m : SortedMap κ ν) : build m.entries = m := by
  obtain ⟨entries, hsorted⟩ := m
  show SortedMap.mk (ofList entries) _ = _
  congr
  exact ofList_of_sorted hsorted

end SortedMap

end WeaveRuntime.Lib
