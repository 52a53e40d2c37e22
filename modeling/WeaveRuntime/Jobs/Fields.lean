/-
A dictionary updated twice: `update` with the outcome of an update is the
two updates, one after the other (`updateFields_updateFields`).

The order of the keys is part of it. A key that is there keeps its place,
so it may be set before or after the others (`setField_comm`); a key that
is not goes to the end, and the first of the two updates puts it there.
-/
import Mathlib.Data.List.Induction
import WeaveRuntime.Jobs.Model

namespace WeaveRuntime.Jobs

open Python

-- ============= one key

theorem setField_setField (fields : Fields) (key : PyKey) (old new : PyVal) :
    setField (setField fields key old) key new = setField fields key new := by
  induction fields with
  | nil => simp [setField]
  | cons entry rest ih =>
    by_cases h : entry.1 = key
    · simp [setField, h]
    · simp [setField, h, ih]

theorem mem_keys_setField (fields : Fields) (key name : PyKey)
    (value : PyVal) : name ∈ (setField fields key value).map (·.1) ↔
      name = key ∨ name ∈ fields.map (·.1) := by
  induction fields with
  | nil => simp [setField]
  | cons entry rest ih =>
    by_cases h : entry.1 = key
    · simp [setField, h]
    · simp only [setField, if_neg h, List.map_cons, List.mem_cons, ih]
      tauto

variable {fields : Fields} {key : PyKey} {patch : Fields}

theorem nodup_setField (key : PyKey) (value : PyVal)
    (h : (fields.map (·.1)).Nodup) :
    ((setField fields key value).map (·.1)).Nodup := by
  induction fields with
  | nil => simp [setField]
  | cons entry rest ih =>
    rw [List.map_cons, List.nodup_cons] at h
    by_cases hkey : entry.1 = key
    · simpa [setField, ← hkey] using h
    · simp only [setField, if_neg hkey, List.map_cons, List.nodup_cons]
      refine ⟨?_, ih h.2⟩
      rw [mem_keys_setField]
      exact fun hor => hor.elim hkey h.1

-- ========= two updates

theorem nodup_updateFields (patch : Fields) (h : (fields.map (·.1)).Nodup) :
    ((updateFields fields patch).map (·.1)).Nodup := by
  induction patch generalizing fields with
  | nil => exact h
  | cons entry rest ih => exact ih (nodup_setField entry.1 entry.2 h)

theorem setField_comm {name : PyKey} (value other : PyVal)
    (hmem : key ∈ fields.map (·.1)) (hne : key ≠ name) :
    setField (setField fields key value) name other
      = setField (setField fields name other) key value := by
  induction fields with
  | nil => simp at hmem
  | cons entry rest ih =>
    by_cases hkey : entry.1 = key
    · have hname : entry.1 ≠ name := fun h => hne (hkey.symm.trans h)
      simp [setField, hkey, hne]
    · have hrest : key ∈ rest.map (·.1) := by
        rw [List.map_cons, List.mem_cons] at hmem
        exact hmem.resolve_left fun h => hkey h.symm
      by_cases hname : entry.1 = name
      · simp [setField, hname, Ne.symm hne]
      · simp [setField, hkey, hname, ih hrest]

theorem setField_updateFields (patch : Fields) (value : PyVal)
    (hmem : key ∈ fields.map (·.1)) (hpatch : key ∉ patch.map (·.1)) :
    setField (updateFields fields patch) key value
      = updateFields (setField fields key value) patch := by
  induction patch generalizing fields with
  | nil => rfl
  | cons entry rest ih =>
    rw [List.map_cons, List.mem_cons, not_or] at hpatch
    have hthere : key ∈ (setField fields entry.1 entry.2).map (·.1) :=
      (mem_keys_setField _ _ _ _).2 (Or.inr hmem)
    calc setField (updateFields (setField fields entry.1 entry.2) rest)
            key value
        = updateFields (setField (setField fields entry.1 entry.2)
            key value) rest := ih hthere hpatch.2
      _ = updateFields (setField (setField fields key value) entry.1
            entry.2) rest := by
          rw [setField_comm value entry.2 hmem hpatch.1]

theorem updateFields_setField (fields : Fields) (key : PyKey) (value : PyVal)
    (h : (patch.map (·.1)).Nodup) :
    updateFields fields (setField patch key value)
      = setField (updateFields fields patch) key value := by
  induction patch generalizing fields with
  | nil => rfl
  | cons entry rest ih =>
    rw [List.map_cons, List.nodup_cons] at h
    by_cases hkey : entry.1 = key
    · have hthere : key ∈ (setField fields entry.1 entry.2).map (·.1) :=
        (mem_keys_setField _ _ _ _).2 (Or.inl hkey.symm)
      have hrest : key ∉ rest.map (·.1) := hkey ▸ h.1
      simp only [setField, if_pos hkey]
      calc updateFields (setField fields entry.1 value) rest
          = updateFields (setField (setField fields entry.1 entry.2)
              key value) rest := by rw [← hkey, setField_setField]
        _ = setField (updateFields (setField fields entry.1 entry.2) rest)
              key value := (setField_updateFields rest value hthere
                hrest).symm
    · simp only [setField, if_neg hkey]
      exact ih (setField fields entry.1 entry.2) h.2

theorem setField_of_fresh (value : PyVal) (h : key ∉ fields.map (·.1)) :
    setField fields key value = fields ++ [(key, value)] := by
  induction fields with
  | nil => rfl
  | cons entry rest ih =>
    rw [List.map_cons, List.mem_cons, not_or] at h
    simp [setField, Ne.symm h.1, ih h.2]

theorem updateFields_nil (h : (patch.map (·.1)).Nodup) :
    updateFields [] patch = patch := by
  induction patch using List.reverseRecOn with
  | nil => rfl
  | append_singleton rest entry ih =>
    rw [List.map_append, List.nodup_append] at h
    have hfresh : entry.1 ∉ rest.map (·.1) := fun hmem =>
      h.2.2 _ hmem _ (List.mem_singleton.2 rfl) rfl
    calc updateFields [] (rest ++ [entry])
        = setField (updateFields [] rest) entry.1 entry.2 := by
          simp [updateFields]
      _ = rest ++ [entry] := by
          rw [ih h.1, setField_of_fresh entry.2 hfresh]

theorem updateFields_updateFields (fields more : Fields)
    (h : (patch.map (·.1)).Nodup) :
    updateFields fields (updateFields patch more)
      = updateFields (updateFields fields patch) more := by
  induction more generalizing patch with
  | nil => rfl
  | cons entry rest ih =>
    calc updateFields fields
            (updateFields (setField patch entry.1 entry.2) rest)
        = updateFields (updateFields fields
            (setField patch entry.1 entry.2)) rest :=
          ih (nodup_setField entry.1 entry.2 h)
      _ = updateFields (setField (updateFields fields patch) entry.1
            entry.2) rest := by rw [updateFields_setField fields _ _ h]


-- ============= look-up

theorem lookupKey_set (fields : Fields) (key : PyKey) (name : String)
    (value : PyVal) :
    lookupKey (setField fields key value) name
      = if key = .str name then some value else lookupKey fields name := by
  unfold lookupKey
  induction fields with
  | nil =>
    by_cases h : key = .str name
    · simp [setField, h]
    · simp [setField, h]
  | cons e fields ih =>
    obtain ⟨k, v⟩ := e
    unfold setField
    by_cases hk : k = key
    · rw [if_pos hk]
      by_cases h : key = .str name
      · simp [hk, h]
      · simp [hk, h]
    · rw [if_neg hk, List.find?_cons, List.find?_cons]
      by_cases hname : k = .str name
      · have hne : key ≠ .str name := fun heq => hk (hname.trans heq.symm)
        simp [hname, hne]
      · simpa [hname] using ih

theorem lookupKey_setField (fields : Fields) (key name : String)
    (value : PyVal) :
    lookupKey (setField fields (.str key) value) name
      = if key = name then some value else lookupKey fields name := by
  rw [lookupKey_set]
  by_cases h : key = name
  · simp [h]
  · simp [h]

theorem lookupKey_append (fields rest : Fields) (name : String) :
    lookupKey (fields ++ rest) name
      = (lookupKey fields name).or (lookupKey rest name) := by
  unfold lookupKey
  rw [List.find?_append, Option.map_or]

theorem lookupKey_eq_none {name : String} (h : .str name ∉ fields.map (·.1)) :
    lookupKey fields name = none := by
  unfold lookupKey
  rw [Option.map_eq_none_iff, List.find?_eq_none]
  intro e he heq
  exact h (List.mem_map.2 ⟨e, he, of_decide_eq_true heq⟩)

theorem lookupKey_updateFields (fields : Fields) (name : String)
    (h : (patch.map (·.1)).Nodup) :
    lookupKey (updateFields fields patch) name
      = (lookupKey patch name).or (lookupKey fields name) := by
  induction patch using List.reverseRecOn with
  | nil => rfl
  | append_singleton rest entry ih =>
    rw [List.map_append, List.nodup_append] at h
    have hset : updateFields fields (rest ++ [entry])
        = setField (updateFields fields rest) entry.1 entry.2 := by
      simp [updateFields]
    rw [hset, lookupKey_set, ih h.1, lookupKey_append]
    by_cases hkey : entry.1 = .str name
    · have hfresh : lookupKey rest name = none := by
        refine lookupKey_eq_none fun hmem => ?_
        exact h.2.2 _ hmem _ (List.mem_singleton.2 rfl) hkey.symm
      have hlast : lookupKey [entry] name = some entry.2 := by
        simp [lookupKey, hkey]
      rw [if_pos hkey, hfresh, hlast]
      rfl
    · simp [hkey, lookupKey]

theorem mem_setField {value : PyVal} {entry : PyKey × PyVal}
    (h : entry ∈ setField fields key value) :
    entry = (key, value) ∨ entry ∈ fields := by
  induction fields with
  | nil => exact Or.inl (List.mem_singleton.1 h)
  | cons e rest ih =>
    unfold setField at h
    by_cases hkey : e.1 = key
    · rw [if_pos hkey, List.mem_cons, hkey] at h
      exact h.imp id fun hmem => List.mem_cons_of_mem _ hmem
    · rw [if_neg hkey, List.mem_cons] at h
      obtain rfl | hmem := h
      · exact Or.inr List.mem_cons_self
      · exact (ih hmem).imp id fun hrest => List.mem_cons_of_mem _ hrest

theorem mem_updateFields {entry : PyKey × PyVal}
    (h : entry ∈ updateFields fields patch) :
    entry ∈ fields ∨ entry ∈ patch := by
  induction patch generalizing fields with
  | nil => exact Or.inl h
  | cons e rest ih =>
    obtain hset | hrest := ih h
    · obtain rfl | hmem := mem_setField hset
      · exact Or.inr List.mem_cons_self
      · exact Or.inl hmem
    · exact Or.inr (List.mem_cons_of_mem _ hrest)

end WeaveRuntime.Jobs
