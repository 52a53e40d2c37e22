/-
Finite maps in insertion order: the mutable dictionaries of the modelled
code, as values.

A `Dict` is its entry list together with the fact that no key occurs
twice, so a dictionary with two values for a key cannot be built. The
operations keep the order a program observes when it iterates: writing a
present key replaces the value in place, writing an absent key appends,
erasing keeps the rest in order.

Everything is proved through membership (`get?_eq_some_iff`), so users
reason about `get?` and never about the entry list.
-/
import Mathlib.Data.List.Nodup

namespace WeaveRuntime.Lib

/-- A finite map with its entries in insertion order. -/
structure Dict (κ : Type u) (ν : Type v) where
  entries : List (κ × ν)
  nodup : (entries.map Prod.fst).Nodup

namespace Dict

variable {κ : Type u} {ν : Type v}

/-- The keys, in insertion order. -/
def keys (d : Dict κ ν) : List κ := d.entries.map Prod.fst

/-- The values, in insertion order. -/
def values (d : Dict κ ν) : List ν := d.entries.map Prod.snd

def empty : Dict κ ν := ⟨[], List.nodup_nil⟩

instance : Inhabited (Dict κ ν) := ⟨empty⟩

@[simp] theorem entries_empty : (empty : Dict κ ν).entries = [] := rfl

@[simp] theorem keys_empty : (empty : Dict κ ν).keys = [] := rfl

theorem nodup_keys (d : Dict κ ν) : d.keys.Nodup := d.nodup

theorem entry_unique {d : Dict κ ν} {k : κ} {v w : ν}
    (hv : (k, v) ∈ d.entries) (hw : (k, w) ∈ d.entries) : v = w := by
  have h := List.inj_on_of_nodup_map d.nodup hv hw rfl
  exact (Prod.mk.inj h).2

theorem ext {d e : Dict κ ν} (h : d.entries = e.entries) : d = e := by
  cases d
  cases e
  cases h
  rfl

theorem nodup_entries (d : Dict κ ν) : d.entries.Nodup :=
  List.Nodup.of_map _ d.nodup

section Lookup

variable [DecidableEq κ]

/-- The value at a key. -/
def get? (d : Dict κ ν) (k : κ) : Option ν :=
  (d.entries.find? fun e => e.1 = k).map Prod.snd

/-- Whether a key is present. -/
def contains (d : Dict κ ν) (k : κ) : Bool := (d.get? k).isSome

/-- Write a key: in place when it is present, at the end otherwise. -/
def insert (d : Dict κ ν) (k : κ) (v : ν) : Dict κ ν :=
  if h : k ∈ d.keys then
    { entries := d.entries.map fun e => if e.1 = k then (k, v) else e
      nodup := by
        have hkeys : (d.entries.map fun e =>
            if e.1 = k then (k, v) else e).map Prod.fst = d.keys := by
          rw [List.map_map]
          refine List.map_congr_left fun e _ => ?_
          simp only [Function.comp]
          split
          · next he => exact he.symm
          · rfl
        rw [hkeys]
        exact d.nodup }
  else
    { entries := d.entries ++ [(k, v)]
      nodup := by
        rw [List.map_append, List.nodup_append]
        refine ⟨d.nodup, List.nodup_singleton _, ?_⟩
        intro a ha b hb hab
        rw [List.map_cons, List.map_nil, List.mem_singleton] at hb
        rw [hab, hb] at ha
        exact h ha }

/-- Remove a key. -/
def erase (d : Dict κ ν) (k : κ) : Dict κ ν :=
  { entries := d.entries.filter fun e => e.1 ≠ k
    nodup := d.nodup.sublist (List.filter_sublist.map Prod.fst) }

/-- Keep the entries that satisfy a test. -/
def filter (d : Dict κ ν) (p : κ → ν → Bool) : Dict κ ν :=
  { entries := d.entries.filter fun e => p e.1 e.2
    nodup := d.nodup.sublist (List.filter_sublist.map Prod.fst) }

/-- A present key keeps its place. -/
example : (((empty.insert "a" 1).insert "b" 2).insert "a" 3).entries
    = [("a", 3), ("b", 2)] := by
  decide

-- ========== membership

variable {d : Dict κ ν} {k k' : κ} {v : ν}

theorem get?_eq_some_iff : d.get? k = some v ↔ (k, v) ∈ d.entries := by
  unfold get?
  rw [Option.map_eq_some_iff]
  constructor
  · rintro ⟨⟨k', v'⟩, hfind, rfl⟩
    have hmem := List.mem_of_find?_eq_some hfind
    have hk : k' = k := by simpa using List.find?_some hfind
    rwa [← hk]
  · intro hmem
    cases hfind : d.entries.find? fun e => e.1 = k with
    | none =>
      have := List.find?_eq_none.1 hfind (k, v) hmem
      simp at this
    | some e =>
      obtain ⟨k', v'⟩ := e
      have hmem' := List.mem_of_find?_eq_some hfind
      have hk : k' = k := by simpa using List.find?_some hfind
      subst hk
      exact ⟨_, rfl, entry_unique hmem' hmem⟩

theorem mem_keys_iff : k ∈ d.keys ↔ ∃ v, d.get? k = some v := by
  unfold keys
  rw [List.mem_map]
  constructor
  · rintro ⟨⟨k', v⟩, hmem, rfl⟩
    exact ⟨v, get?_eq_some_iff.2 hmem⟩
  · rintro ⟨v, hv⟩
    exact ⟨(k, v), get?_eq_some_iff.1 hv, rfl⟩

theorem get?_eq_none_iff : d.get? k = none ↔ k ∉ d.keys := by
  rw [mem_keys_iff, Option.eq_none_iff_forall_ne_some]
  simp

theorem contains_iff : d.contains k = true ↔ k ∈ d.keys := by
  rw [contains, Option.isSome_iff_exists, mem_keys_iff]

theorem mem_values_iff : v ∈ d.values ↔ ∃ k, d.get? k = some v := by
  unfold values
  rw [List.mem_map]
  constructor
  · rintro ⟨⟨k, v'⟩, hmem, rfl⟩
    exact ⟨k, get?_eq_some_iff.2 hmem⟩
  · rintro ⟨k, hk⟩
    exact ⟨(k, v), get?_eq_some_iff.1 hk, rfl⟩

-- ============= lookups

@[simp] theorem get?_empty (k : κ) : (empty : Dict κ ν).get? k = none := rfl

theorem mem_entries_insert {w : ν} :
    (k', w) ∈ (d.insert k v).entries
      ↔ (k' = k ∧ w = v) ∨ (k' ≠ k ∧ (k', w) ∈ d.entries) := by
  unfold insert
  split
  · next hk =>
    rw [List.mem_map]
    constructor
    · rintro ⟨⟨k₀, w₀⟩, hmem, heq⟩
      by_cases h : k₀ = k
      · rw [if_pos h] at heq
        cases heq
        exact Or.inl ⟨rfl, rfl⟩
      · rw [if_neg h] at heq
        cases heq
        exact Or.inr ⟨h, hmem⟩
    · rintro (⟨rfl, rfl⟩ | ⟨hne, hmem⟩)
      · obtain ⟨⟨k₀, w₀⟩, hmem, rfl⟩ := List.mem_map.1 hk
        exact ⟨(k₀, w₀), hmem, by simp⟩
      · exact ⟨(k', w), hmem, by simp [hne]⟩
  · next hk =>
    rw [List.mem_append, List.mem_singleton, Prod.mk.injEq]
    constructor
    · rintro (hmem | h)
      · refine Or.inr ⟨?_, hmem⟩
        rintro rfl
        exact hk (List.mem_map_of_mem hmem)
      · exact Or.inl h
    · rintro (h | ⟨-, hmem⟩)
      · exact Or.inr h
      · exact Or.inl hmem

@[simp] theorem get?_insert_self (d : Dict κ ν) (k : κ) (v : ν) :
    (d.insert k v).get? k = some v :=
  get?_eq_some_iff.2 (mem_entries_insert.2 (Or.inl ⟨rfl, rfl⟩))

theorem get?_insert_of_ne (d : Dict κ ν) (v : ν) (h : k' ≠ k) :
    (d.insert k v).get? k' = d.get? k' := by
  refine Option.ext fun w => ?_
  rw [get?_eq_some_iff, get?_eq_some_iff, mem_entries_insert]
  simp [h]

theorem get?_insert (d : Dict κ ν) (k k' : κ) (v : ν) :
    (d.insert k v).get? k' = if k' = k then some v else d.get? k' := by
  split
  · next h => rw [h, get?_insert_self]
  · next h => exact get?_insert_of_ne d v h

@[simp] theorem get?_erase_self (d : Dict κ ν) (k : κ) :
    (d.erase k).get? k = none := by
  rw [get?_eq_none_iff, mem_keys_iff]
  rintro ⟨v, hv⟩
  have := get?_eq_some_iff.1 hv
  simp [erase] at this

theorem get?_erase_of_ne (d : Dict κ ν) (h : k' ≠ k) :
    (d.erase k).get? k' = d.get? k' := by
  refine Option.ext fun w => ?_
  rw [get?_eq_some_iff, get?_eq_some_iff]
  simp [erase, h]

theorem get?_erase (d : Dict κ ν) (k k' : κ) :
    (d.erase k).get? k' = if k' = k then none else d.get? k' := by
  split
  · next h => rw [h, get?_erase_self]
  · next h => exact get?_erase_of_ne d h

theorem get?_filter_eq_some {p : κ → ν → Bool} :
    (d.filter p).get? k = some v ↔ d.get? k = some v ∧ p k v = true := by
  rw [get?_eq_some_iff, get?_eq_some_iff]
  simp [filter]

theorem get?_filter (d : Dict κ ν) (p : κ → ν → Bool) (k : κ) :
    (d.filter p).get? k = (d.get? k).filter (p k) := by
  refine Option.ext fun v => ?_
  rw [get?_filter_eq_some, Option.filter_eq_some_iff]

theorem get?_foldl_insert {α : Type*} {f : α → κ} {g : α → ν} {as : List α}
    (hnodup : (as.map f).Nodup) (d : Dict κ ν) (k : κ) (v : ν) :
    (as.foldl (fun d a => d.insert (f a) (g a)) d).get? k = some v
      ↔ (∃ a ∈ as, f a = k ∧ g a = v)
        ∨ (k ∉ as.map f ∧ d.get? k = some v) := by
  induction as generalizing d with
  | nil => simp
  | cons a as ih =>
    rw [List.map_cons, List.nodup_cons] at hnodup
    rw [List.foldl_cons, ih hnodup.2, get?_insert]
    by_cases hk : k = f a
    · rw [if_pos hk, hk]
      simp [hnodup.1, or_comm]
    · rw [if_neg hk]
      have hne : f a ≠ k := Ne.symm hk
      simp [hne, hk]

-- ================ keys

theorem mem_keys_insert :
    k' ∈ (d.insert k v).keys ↔ k' = k ∨ k' ∈ d.keys := by
  rw [mem_keys_iff, mem_keys_iff, get?_insert]
  split
  · next h => simp [h]
  · next h => simp [h]

theorem mem_keys_erase : k' ∈ (d.erase k).keys ↔ k' ≠ k ∧ k' ∈ d.keys := by
  rw [mem_keys_iff, mem_keys_iff, get?_erase]
  split
  · next h => simp [h]
  · next h => simp [h]

theorem entries_insert_of_not_mem (h : k ∉ d.keys) :
    (d.insert k v).entries = d.entries ++ [(k, v)] := by
  unfold insert
  rw [dif_neg h]

theorem keys_insert_of_not_mem (h : k ∉ d.keys) :
    (d.insert k v).keys = d.keys ++ [k] := by
  unfold keys
  rw [entries_insert_of_not_mem h, List.map_append]
  rfl

-- =========== rewriting

theorem entries_erase (d : Dict κ ν) (k : κ) :
    (d.erase k).entries = d.entries.filter fun e => e.1 ≠ k := rfl

theorem entries_insert_of_mem (h : k ∈ d.keys) : (d.insert k v).entries
      = d.entries.map fun e => if e.1 = k then (k, v) else e := by
  unfold insert
  rw [dif_pos h]

@[simp] theorem erase_insert (d : Dict κ ν) (k : κ) (v : ν) :
    (d.insert k v).erase k = d.erase k := by
  refine ext ?_
  rw [entries_erase, entries_erase]
  by_cases hk : k ∈ d.keys
  · rw [entries_insert_of_mem hk, List.filter_map]
    -- the entries that stay are the ones the write did not touch
    have htest : d.entries.filter
        ((fun e : κ × ν => decide (e.1 ≠ k)) ∘
          fun e => if e.1 = k then (k, v) else e)
        = d.entries.filter fun e => decide (e.1 ≠ k) := by
      refine List.filter_congr fun e _ => ?_
      by_cases he : e.1 = k
      · simp [he]
      · simp [he]
    have hsame : ∀ e ∈ d.entries.filter (fun e => decide (e.1 ≠ k)),
        (fun e : κ × ν => if e.1 = k then (k, v) else e) e = id e := by
      intro e he
      exact if_neg (of_decide_eq_true (List.mem_filter.1 he).2)
    rw [htest, List.map_congr_left hsame, List.map_id]
  · rw [entries_insert_of_not_mem hk, List.filter_append]
    simp

@[simp] theorem insert_insert (d : Dict κ ν) (k : κ) (v w : ν) :
    (d.insert k v).insert k w = d.insert k w := by
  have hmem : k ∈ (d.insert k v).keys := mem_keys_insert.2 (Or.inl rfl)
  refine ext ?_
  rw [entries_insert_of_mem hmem]
  by_cases hk : k ∈ d.keys
  · rw [entries_insert_of_mem hk, entries_insert_of_mem hk, List.map_map]
    refine List.map_congr_left fun e _ => ?_
    by_cases he : e.1 = k
    · simp [he]
    · simp [he]
  · have hkeep : ∀ e ∈ d.entries,
        (fun e : κ × ν => if e.1 = k then (k, w) else e) e = id e := by
      intro e he
      have hne : e.1 ≠ k := by
        intro heq
        exact hk (heq ▸ List.mem_map_of_mem he)
      exact if_neg hne
    rw [entries_insert_of_not_mem hk, entries_insert_of_not_mem hk,
      List.map_append, List.map_congr_left hkeep, List.map_id]
    simp

theorem entries_insert_perm (d : Dict κ ν) (k : κ) (v : ν) :
    (d.insert k v).entries.Perm ((k, v) :: (d.erase k).entries) := by
  refine (List.perm_ext_iff_of_nodup (nodup_entries _) ?_).2 fun e => ?_
  · refine List.nodup_cons.2 ⟨fun hmem => ?_, nodup_entries _⟩
    have hne := (List.mem_filter.1 hmem).2
    simp at hne
  · obtain ⟨k', w⟩ := e
    rw [mem_entries_insert, List.mem_cons, entries_erase, List.mem_filter,
      Prod.mk.injEq]
    simp [and_comm]

theorem entries_perm_of_get? (h : d.get? k = some v) :
    d.entries.Perm ((k, v) :: (d.erase k).entries) := by
  have hmem : k ∈ d.keys := mem_keys_iff.2 ⟨v, h⟩
  refine (List.perm_ext_iff_of_nodup (nodup_entries _) ?_).2 fun e => ?_
  · refine List.nodup_cons.2 ⟨fun hin => ?_, nodup_entries _⟩
    have hne := (List.mem_filter.1 hin).2
    simp at hne
  · obtain ⟨k', w⟩ := e
    rw [List.mem_cons, entries_erase, List.mem_filter, Prod.mk.injEq]
    by_cases hk : k' = k
    · rw [hk, ← get?_eq_some_iff, h]
      simp [eq_comm]
    · simp [hk]

theorem erase_of_not_mem (h : k ∉ d.keys) : d.erase k = d := by
  refine ext (List.filter_eq_self.2 fun e he => decide_eq_true ?_)
  intro heq
  exact h (heq ▸ List.mem_map_of_mem he)

end Lookup

-- ======== other values

/-- The dictionary with a function applied to every value. -/
def mapValues {μ : Type*} (f : ν → μ) (d : Dict κ ν) : Dict κ μ where
  entries := d.entries.map fun e => (e.1, f e.2)
  nodup := by
    rw [List.map_map]
    exact d.nodup

section MapValues

variable {μ : Type*} (f : ν → μ) (d : Dict κ ν)

@[simp] theorem entries_mapValues :
    (d.mapValues f).entries = d.entries.map fun e => (e.1, f e.2) := rfl

@[simp] theorem keys_mapValues : (d.mapValues f).keys = d.keys := by
  unfold keys
  rw [entries_mapValues, List.map_map]
  rfl

theorem mapValues_filter_keys (p : κ → Bool) :
    (d.filter fun k _ => p k).mapValues f
      = (d.mapValues f).filter fun k _ => p k := by
  refine ext ?_
  show ((d.entries.filter fun e => p e.1).map fun e => (e.1, f e.2))
    = (d.entries.map fun e => (e.1, f e.2)).filter fun e => p e.1
  rw [List.filter_map]
  rfl

variable [DecidableEq κ]

@[simp] theorem get?_mapValues (k : κ) :
    (d.mapValues f).get? k = (d.get? k).map f := by
  unfold get?
  rw [entries_mapValues, List.find?_map, Option.map_map, Option.map_map]
  rfl

@[simp] theorem contains_mapValues (k : κ) :
    (d.mapValues f).contains k = d.contains k := by
  unfold contains
  rw [get?_mapValues, Option.isSome_map]

@[simp] theorem mapValues_insert (k : κ) (v : ν) :
    (d.insert k v).mapValues f = (d.mapValues f).insert k (f v) := by
  refine ext ?_
  by_cases hk : k ∈ d.keys
  · have hk' : k ∈ (d.mapValues f).keys := by rwa [keys_mapValues]
    rw [entries_mapValues, entries_insert_of_mem hk,
      entries_insert_of_mem hk', entries_mapValues, List.map_map,
      List.map_map]
    refine List.map_congr_left fun e _ => ?_
    by_cases he : e.1 = k
    · simp [he]
    · simp [he]
  · have hk' : k ∉ (d.mapValues f).keys := by rwa [keys_mapValues]
    rw [entries_mapValues, entries_insert_of_not_mem hk,
      entries_insert_of_not_mem hk', entries_mapValues, List.map_append]
    rfl

@[simp] theorem mapValues_erase (k : κ) :
    (d.erase k).mapValues f = (d.mapValues f).erase k := by
  refine ext ?_
  rw [entries_mapValues, entries_erase, entries_erase, entries_mapValues,
    List.filter_map]
  rfl

end MapValues

end Dict

end WeaveRuntime.Lib
