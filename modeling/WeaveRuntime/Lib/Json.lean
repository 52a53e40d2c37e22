/-
JSON values, and their objects as association lists.

A number is its value, so `1` and `1.0` are one number. An object is a
list of fields; `Proper` says that no field occurs twice at any depth,
which holds of every value a program can hold. `same` is equality up to
the order of an object's fields.

The three writes of a program on a dictionary's fields (`replace`,
`remove`, and both at once through `adjust`) are entrywise: under distinct
names `adjust` is what a program does that reads one field and then writes
or deletes it.
-/
import Mathlib.Data.List.Nodup
import Mathlib.Data.Rat.Defs

namespace WeaveRuntime.Lib

/-- A JSON value. -/
inductive Json where
  | null
  | bool (b : Bool)
  | num (q : ℚ)
  | str (s : String)
  | arr (items : List Json)
  | obj (fields : List (String × Json))

namespace Json

instance : Inhabited Json := ⟨null⟩

/-- The fields of an object. -/
def fields? : Json → Option (List (String × Json))
  | obj fs => some fs
  | _ => none

/-- The items of an array. -/
def items? : Json → Option (List Json)
  | arr xs => some xs
  | _ => none

@[simp] theorem fields?_obj (fs : List (String × Json)) :
    (obj fs).fields? = some fs := rfl

@[simp] theorem items?_obj (fs : List (String × Json)) :
    (obj fs).items? = none := rfl

@[simp] theorem fields?_arr (xs : List Json) : (arr xs).fields? = none := rfl

@[simp] theorem items?_arr (xs : List Json) : (arr xs).items? = some xs := rfl

@[simp] theorem fields?_null : null.fields? = none := rfl

@[simp] theorem items?_null : null.items? = none := rfl

theorem fields?_eq_some_iff {v : Json} {fs : List (String × Json)} :
    v.fields? = some fs ↔ v = obj fs := by
  cases v with
  | bool b => simp [fields?]
  | num q => simp [fields?]
  | str s => simp [fields?]
  | _ => simp

theorem items?_eq_some_iff {v : Json} {xs : List Json} :
    v.items? = some xs ↔ v = arr xs := by
  cases v with
  | bool b => simp [items?]
  | num q => simp [items?]
  | str s => simp [items?]
  | _ => simp

def isNull : Json → Bool
  | null => true
  | _ => false

theorem isNull_iff {v : Json} : v.isNull = true ↔ v = null := by
  cases v with
  | _ => simp [isNull]

-- ============ equality

mutual

/-- Equality of JSON values: the order of an object's fields is not
looked at. -/
def same : Json → Json → Bool
  | null, null => true
  | bool a, bool b => a == b
  | num p, num q => p == q
  | str s, str t => s == t
  | arr xs, arr ys => sameItems xs ys
  | obj fs, obj gs => fs.length == gs.length && sameFields fs gs
  | _, _ => false

def sameItems : List Json → List Json → Bool
  | [], [] => true
  | x :: xs, y :: ys => same x y && sameItems xs ys
  | _, _ => false

/-- Every field of the first list is the same in the second. -/
def sameFields : List (String × Json) → List (String × Json) → Bool
  | [], _ => true
  | (k, x) :: fs, gs =>
    (gs.lookup k).any (fun y => same x y) && sameFields fs gs

end

-- ============== proper

mutual

/-- No object has a field twice. -/
def Proper : Json → Prop
  | arr xs => ProperItems xs
  | obj fs => (fs.map Prod.fst).Nodup ∧ ProperFields fs
  | _ => True

def ProperItems : List Json → Prop
  | [] => True
  | x :: xs => Proper x ∧ ProperItems xs

def ProperFields : List (String × Json) → Prop
  | [] => True
  | (_, x) :: fs => Proper x ∧ ProperFields fs

end

theorem properItems_iff {xs : List Json} :
    ProperItems xs ↔ ∀ x ∈ xs, Proper x := by
  induction xs with
  | nil => simp [ProperItems]
  | cons x xs ih => simp [ProperItems, ih]

theorem properFields_iff {fs : List (String × Json)} :
    ProperFields fs ↔ ∀ f ∈ fs, Proper f.2 := by
  induction fs with
  | nil => simp [ProperFields]
  | cons f fs ih => simp [ProperFields, ih]

end Json

-- ============== fields

namespace Fields

variable {α : Type u} {β : Type v}

/-- Overwrite a field that is there. -/
def replace (fs : List (String × α)) (k : String) (x : α) :
    List (String × α) :=
  fs.map fun e => if e.1 = k then (k, x) else e

/-- Delete a field. -/
def remove (fs : List (String × α)) (k : String) : List (String × α) :=
  fs.filter fun e => e.1 ≠ k

/-- Rewrite every field by its name: to a new value, or away. -/
def adjust (g : String → α → Option β) (fs : List (String × α)) :
    List (String × β) :=
  fs.filterMap fun e => (g e.1 e.2).map fun y => (e.1, y)

variable {fs : List (String × α)} {k : String} {x : α}

theorem lookup_eq_some_iff (h : (fs.map Prod.fst).Nodup) :
    fs.lookup k = some x ↔ (k, x) ∈ fs := by
  induction fs with
  | nil => simp
  | cons e fs ih =>
    obtain ⟨n, y⟩ := e
    obtain ⟨hn, hrest⟩ := List.nodup_cons.1 h
    rw [List.lookup_cons]
    by_cases hk : k = n
    · subst hk
      have hmem : (k, x) ∉ fs := by
        intro hmem
        exact hn (List.mem_map.2 ⟨_, hmem, rfl⟩)
      simp [hmem, eq_comm]
    · have hne : (k == n) = false := by simpa using hk
      simp [hne, hk, ih hrest]

theorem lookup_eq_none_iff : fs.lookup k = none ↔ k ∉ fs.map Prod.fst := by
  induction fs with
  | nil => simp
  | cons e fs ih =>
    obtain ⟨n, y⟩ := e
    rw [List.lookup_cons]
    by_cases hk : k = n
    · simp [hk]
    · have hne : (k == n) = false := by simpa using hk
      simp only [hne, ih, List.map_cons, List.mem_cons, hk, false_or]

theorem lookup_isSome_iff :
    (fs.lookup k).isSome = true ↔ k ∈ fs.map Prod.fst := by
  rw [Option.isSome_iff_ne_none, ne_eq, lookup_eq_none_iff, not_not]

theorem mem_of_lookup (h : fs.lookup k = some x) : (k, x) ∈ fs := by
  induction fs with
  | nil => cases h
  | cons e fs ih =>
    obtain ⟨n, y⟩ := e
    rw [List.lookup_cons] at h
    by_cases hk : k = n
    · subst hk
      simp only [BEq.rfl, Option.some.injEq] at h
      rw [h]
      exact List.mem_cons_self
    · have hne : (k == n) = false := by simpa using hk
      rw [hne] at h
      exact List.mem_cons_of_mem _ (ih h)

theorem lookup_map (f : α → β) (fs : List (String × α)) (k : String) :
    (fs.map fun e => (e.1, f e.2)).lookup k = (fs.lookup k).map f := by
  induction fs with
  | nil => rfl
  | cons e fs ih =>
    obtain ⟨n, y⟩ := e
    rw [List.map_cons, List.lookup_cons, List.lookup_cons, ih]
    by_cases hk : k = n
    · simp [hk]
    · have hne : (k == n) = false := by simpa using hk
      simp [hne]

variable {g : String → α → Option β}

theorem keys_adjust_subset :
    ((adjust g fs).map Prod.fst).Sublist (fs.map Prod.fst) := by
  induction fs with
  | nil => exact List.Sublist.refl _
  | cons e fs ih =>
    unfold adjust
    cases hg : g e.1 e.2 with
    | none =>
      rw [List.filterMap_cons_none (by rw [hg]; rfl)]
      exact ih.cons _
    | some y =>
      rw [List.filterMap_cons_some (by rw [hg]; rfl)]
      exact ih.cons_cons _

theorem adjust_adjust {γ : Type w} (g : String → α → Option β)
    (h : String → β → Option γ) (fs : List (String × α)) :
    adjust h (adjust g fs) = adjust (fun k x => (g k x).bind (h k)) fs := by
  unfold adjust
  rw [List.filterMap_filterMap]
  apply List.filterMap_congr
  intro e _
  cases hg : g e.1 e.2 with
  | none => simp [hg]
  | some y => simp [hg]

theorem adjust_congr {h : String → α → Option β}
    (hgh : ∀ e ∈ fs, g e.1 e.2 = h e.1 e.2) : adjust g fs = adjust h fs := by
  apply List.filterMap_congr
  intro e he
  rw [hgh e he]

theorem adjust_append (g : String → α → Option β)
    (fs gs : List (String × α)) :
    adjust g (fs ++ gs) = adjust g fs ++ adjust g gs :=
  List.filterMap_append

theorem adjust_eq_map {f : String → α → β}
    (h : ∀ e ∈ fs, g e.1 e.2 = some (f e.1 e.2)) :
    adjust g fs = fs.map fun e => (e.1, f e.1 e.2) := by
  induction fs with
  | nil => rfl
  | cons e fs ih =>
    have hhead := h e List.mem_cons_self
    have htail := ih fun e' he' => h e' (List.mem_cons_of_mem _ he')
    unfold adjust at htail ⊢
    rw [List.filterMap_cons_some (by rw [hhead]; rfl), htail]
    rfl

theorem adjust_map_filter {γ : Type w} {l : List γ} {name : γ → String}
    {y : β} {keep : γ → Bool}
    (h : ∀ c ∈ l, g (name c) x = if keep c then some y else none) :
    adjust g (l.map fun c => (name c, x))
      = (l.filter keep).map fun c => (name c, y) := by
  induction l with
  | nil => rfl
  | cons c l ih =>
    have hhead := h c List.mem_cons_self
    have htail := ih fun c' hc' => h c' (List.mem_cons_of_mem _ hc')
    unfold adjust at htail ⊢
    by_cases hc : keep c = true
    · rw [if_pos hc] at hhead
      rw [List.map_cons, List.filterMap_cons_some (by rw [hhead]; rfl),
        htail, List.filter_cons_of_pos hc, List.map_cons]
    · rw [if_neg hc] at hhead
      rw [List.map_cons, List.filterMap_cons_none (by rw [hhead]; rfl),
        htail, List.filter_cons_of_neg hc]

theorem mem_adjust {e : String × β} :
    e ∈ adjust g fs ↔ ∃ x, (e.1, x) ∈ fs ∧ g e.1 x = some e.2 := by
  obtain ⟨k, y⟩ := e
  simp only [adjust, List.mem_filterMap, Option.map_eq_some_iff,
    Prod.mk.injEq, Prod.exists]
  constructor
  · intro ⟨n, x, hmem, z, hz, hn, hzy⟩
    subst hn hzy
    exact ⟨x, hmem, hz⟩
  · intro ⟨x, hmem, hx⟩
    exact ⟨k, x, hmem, y, hx, rfl, rfl⟩

theorem replace_eq_adjust (k : String) (y : α) (fs : List (String × α)) :
    replace fs k y
      = adjust (fun n x => some (if n = k then y else x)) fs := by
  have hmap : adjust (fun n x => some (if n = k then y else x)) fs
      = fs.map fun e => (e.1, if e.1 = k then y else e.2) :=
    adjust_eq_map (f := fun n x => if n = k then y else x)
      fun _ _ => rfl
  rw [hmap]
  apply List.map_congr_left
  intro e _
  by_cases hk : e.1 = k
  · simp [hk]
  · simp [hk]

theorem remove_eq_adjust (k : String) (fs : List (String × α)) :
    remove fs k = adjust (fun n x => if n = k then none else some x) fs := by
  unfold remove adjust
  induction fs with
  | nil => rfl
  | cons e fs ih =>
    by_cases hk : e.1 = k
    · rw [List.filter_cons_of_neg (by simp [hk]),
        List.filterMap_cons_none (by simp [hk]), ih]
    · rw [List.filter_cons_of_pos (by simp [hk]),
        List.filterMap_cons_some (by simp [hk]; rfl), ih]

end Fields

end WeaveRuntime.Lib
