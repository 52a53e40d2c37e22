/-
Python values as JSON documents.

Python compares two dictionaries without looking at their order, and
`json.dumps(.., sort_keys=True)` forgets it. So a dictionary that outlives
a call is kept here in canonical form: `canon` puts the fields of every
dictionary inside a value in key order (`SortedMap`), and two values that
Python calls equal have one canonical form.

`jsonSafe` is the conversion the stores apply before they write, and
`jsonReadBack` the value `json.loads` reads from the text `json.dumps` has
written with sorted keys. A JSON value is one whose dictionaries have
string keys and which holds no object JSON does not know (`isJson`): its
canonical form survives both (`jsonSafe_canon`, `jsonReadBack_canon`).
-/
import WeaveRuntime.Lib.SortedMap
import WeaveRuntime.Python.Value
import Mathlib.Data.Prod.Lex
import Mathlib.Data.String.Basic

namespace WeaveRuntime.Python

open Lib

-- =========== key order

/-- Strings come before other keys. -/
def PyKey.rank : PyKey → Nat
  | .str _ => 0
  | .other _ => 1

/-- Keys of one kind are ordered by their text. -/
def PyKey.orderKey (k : PyKey) : ℕ ×ₗ String := toLex (k.rank, k.text)

theorem PyKey.orderKey_injective : Function.Injective PyKey.orderKey := by
  intro a b h
  have hpair : (a.rank, a.text) = (b.rank, b.text) := toLex.injective h
  obtain ⟨hrank, htext⟩ := Prod.mk.inj hpair
  cases a with
  | str s =>
    cases b with
    | str t => exact congrArg PyKey.str htext
    | other t => cases hrank
  | other s =>
    cases b with
    | str t => cases hrank
    | other t => exact congrArg PyKey.other htext

instance : LinearOrder PyKey where
  le a b := a.orderKey ≤ b.orderKey
  lt a b := a.orderKey < b.orderKey
  le_refl _ := le_refl _
  le_trans _ _ _ := le_trans
  lt_iff_le_not_ge _ _ := lt_iff_le_not_ge
  le_antisymm _ _ hab hba := PyKey.orderKey_injective (le_antisymm hab hba)
  le_total _ _ := le_total _ _
  toDecidableLE a b := inferInstanceAs (Decidable (a.orderKey ≤ b.orderKey))
  toDecidableLT a b := inferInstanceAs (Decidable (a.orderKey < b.orderKey))
  toDecidableEq := inferInstance

theorem PyKey.str_lt_str {s t : String} (h : s < t) :
    PyKey.str s < PyKey.str t := by
  show toLex ((0 : ℕ), s) < toLex ((0 : ℕ), t)
  rw [Prod.Lex.toLex_lt_toLex]
  exact Or.inr ⟨rfl, h⟩

-- ====== canonical form

mutual

/-- The value with every dictionary in key order. -/
def PyVal.canon : PyVal → PyVal
  | .list items => .list (canonItems items)
  | .dict fields => .dict (SortedMap.ofList (canonFields fields))
  | v => v

def canonItems : List PyVal → List PyVal
  | [] => []
  | v :: vs => v.canon :: canonItems vs

def canonFields : List (PyKey × PyVal) → List (PyKey × PyVal)
  | [] => []
  | (k, v) :: fs => (k, v.canon) :: canonFields fs

end

mutual

def jsonSafe : PyVal → PyVal
  | .other text => .str text
  | .list items => .list (jsonSafeItems items)
  | .dict fields => .dict (SortedMap.ofList (jsonSafeFields fields))
  | v => v

def jsonSafeItems : List PyVal → List PyVal
  | [] => []
  | v :: vs => jsonSafe v :: jsonSafeItems vs

def jsonSafeFields : List (PyKey × PyVal) → List (PyKey × PyVal)
  | [] => []
  | (k, v) :: fs => (.str k.text, jsonSafe v) :: jsonSafeFields fs

end

/-- `json.loads(json.dumps(value, sort_keys=True))`, for a value JSON can
write. -/
def jsonReadBack (value : PyVal) : PyVal := value.canon

mutual

/-- Whether a value is a JSON value. -/
def PyVal.isJson : PyVal → Bool
  | .list items => isJsonItems items
  | .dict fields => isJsonFields fields
  | .other _ => false
  | _ => true

def isJsonItems : List PyVal → Bool
  | [] => true
  | v :: vs => v.isJson && isJsonItems vs

def isJsonFields : List (PyKey × PyVal) → Bool
  | [] => true
  | (.str _, v) :: fs => v.isJson && isJsonFields fs
  | (.other _, _) :: _ => false

end

-- =============== lists

theorem canonItems_eq_map (vs : List PyVal) :
    canonItems vs = vs.map PyVal.canon := by
  induction vs with
  | nil => rfl
  | cons v vs ih => rw [canonItems, ih, List.map_cons]

theorem canonFields_eq_map (fs : List (PyKey × PyVal)) :
    canonFields fs = fs.map fun e => (e.1, e.2.canon) := by
  induction fs with
  | nil => rfl
  | cons f fs ih =>
    obtain ⟨k, v⟩ := f
    rw [canonFields, ih, List.map_cons]

theorem isJsonFields_iff {fs : List (PyKey × PyVal)} :
    isJsonFields fs = true
      ↔ ∀ e ∈ fs, e.1 = .str e.1.text ∧ e.2.isJson = true := by
  induction fs with
  | nil => simp [isJsonFields]
  | cons f fs ih =>
    obtain ⟨k, v⟩ := f
    cases k with
    | str s => simp [isJsonFields, ih, PyKey.text]
    | other t => simp [isJsonFields]

theorem sorted_canonFields {fs : List (PyKey × PyVal)}
    (h : SortedMap.Sorted fs) : SortedMap.Sorted (canonFields fs) := by
  rw [canonFields_eq_map]
  exact List.pairwise_map.2 h

-- ==== what canon preserves

mutual

theorem canon_canon (v : PyVal) : v.canon.canon = v.canon := by
  cases v with
  | list items =>
    rw [PyVal.canon, PyVal.canon, canonItems_canonItems]
  | dict fields =>
    have hfields : canonFields (SortedMap.ofList (canonFields fields))
        = SortedMap.ofList (canonFields fields) := by
      rw [canonFields_eq_map]
      refine (List.map_congr_left fun e he => ?_).trans (List.map_id _)
      have hcanon := canonFields_canon fields e
        (SortedMap.mem_of_mem_ofList he)
      exact Prod.ext rfl hcanon
    rw [PyVal.canon, PyVal.canon, hfields,
      SortedMap.ofList_of_sorted (SortedMap.sorted_ofList _)]
  | _ => rfl

theorem canonItems_canonItems (vs : List PyVal) :
    canonItems (canonItems vs) = canonItems vs := by
  cases vs with
  | nil => rfl
  | cons v vs =>
    rw [canonItems, canonItems, canon_canon v, canonItems_canonItems vs]

theorem canonFields_canon (fs : List (PyKey × PyVal)) :
    ∀ e ∈ canonFields fs, e.2.canon = e.2 := by
  cases fs with
  | nil =>
    intro e he
    cases he
  | cons f fs =>
    obtain ⟨k, v⟩ := f
    intro e he
    rw [canonFields] at he
    rcases List.mem_cons.1 he with rfl | he
    · exact canon_canon v
    · exact canonFields_canon fs e he

end

mutual

theorem isJson_canon {v : PyVal} (h : v.isJson = true) :
    v.canon.isJson = true := by
  cases v with
  | list items =>
    rw [PyVal.canon, PyVal.isJson]
    exact isJsonItems_canonItems h
  | dict fields =>
    rw [PyVal.canon, PyVal.isJson, isJsonFields_iff]
    intro e he
    exact isJsonFields_canonFields h e (SortedMap.mem_of_mem_ofList he)
  | other => cases h
  | _ => rfl

theorem isJsonItems_canonItems {vs : List PyVal} (h : isJsonItems vs = true) :
    isJsonItems (canonItems vs) = true := by
  cases vs with
  | nil => rfl
  | cons v vs =>
    rw [isJsonItems, Bool.and_eq_true] at h
    rw [canonItems, isJsonItems, Bool.and_eq_true]
    exact ⟨isJson_canon h.1, isJsonItems_canonItems h.2⟩

theorem isJsonFields_canonFields {fs : List (PyKey × PyVal)}
    (h : isJsonFields fs = true) :
    ∀ e ∈ canonFields fs, e.1 = .str e.1.text ∧ e.2.isJson = true := by
  cases fs with
  | nil =>
    intro e he
    cases he
  | cons f fs =>
    obtain ⟨k, v⟩ := f
    intro e he
    rw [canonFields] at he
    cases k with
    | other t => cases h
    | str s =>
      rw [isJsonFields, Bool.and_eq_true] at h
      rcases List.mem_cons.1 he with rfl | he
      · exact ⟨rfl, isJson_canon h.1⟩
      · exact isJsonFields_canonFields h.2 e he

end

mutual

theorem jsonSafe_eq_self {v : PyVal} (h : v.isJson = true)
    (hc : v.canon = v) : jsonSafe v = v := by
  cases v with
  | list items =>
    rw [PyVal.canon] at hc
    rw [jsonSafe, jsonSafeItems_eq_self h (PyVal.list.inj hc)]
  | dict fields =>
    rw [PyVal.canon] at hc
    have hof := PyVal.dict.inj hc
    have hsorted : SortedMap.Sorted fields := by
      rw [← hof]
      exact SortedMap.sorted_ofList _
    rw [SortedMap.ofList_of_sorted (sorted_canonFields hsorted)] at hof
    rw [jsonSafe, jsonSafeFields_eq_self h hof,
      SortedMap.ofList_of_sorted hsorted]
  | other => cases h
  | _ => rfl

theorem jsonSafeItems_eq_self {vs : List PyVal} (h : isJsonItems vs = true)
    (hc : canonItems vs = vs) : jsonSafeItems vs = vs := by
  cases vs with
  | nil => rfl
  | cons v vs =>
    rw [isJsonItems, Bool.and_eq_true] at h
    rw [canonItems] at hc
    obtain ⟨hv, hvs⟩ := List.cons.inj hc
    rw [jsonSafeItems, jsonSafe_eq_self h.1 hv,
      jsonSafeItems_eq_self h.2 hvs]

theorem jsonSafeFields_eq_self {fs : List (PyKey × PyVal)}
    (h : isJsonFields fs = true) (hc : canonFields fs = fs) :
    jsonSafeFields fs = fs := by
  cases fs with
  | nil => rfl
  | cons f fs =>
    obtain ⟨k, v⟩ := f
    cases k with
    | other t => cases h
    | str s =>
      rw [isJsonFields, Bool.and_eq_true] at h
      rw [canonFields] at hc
      obtain ⟨hv, hfs⟩ := List.cons.inj hc
      have hval : v.canon = v := (Prod.mk.inj hv).2
      rw [jsonSafeFields, jsonSafe_eq_self h.1 hval,
        jsonSafeFields_eq_self h.2 hfs]
      rfl

end

theorem jsonSafe_canon {v : PyVal} (h : v.isJson = true) :
    jsonSafe v.canon = v.canon :=
  jsonSafe_eq_self (isJson_canon h) (canon_canon v)

theorem lookupKey_canon {fs : List (PyKey × PyVal)}
    (h : (fs.map Prod.fst).Nodup) (key : String) :
    lookupKey (SortedMap.ofList (canonFields fs)) key
      = (lookupKey fs key).map PyVal.canon := by
  have hkeys : ((canonFields fs).map Prod.fst).Nodup := by
    rw [canonFields_eq_map, List.map_map]
    exact h
  show SortedMap.get? (SortedMap.ofList (canonFields fs)) (.str key) = _
  rw [SortedMap.get?_ofList hkeys, canonFields_eq_map]
  show ((fs.map fun e => (e.1, e.2.canon)).find? _).map Prod.snd = _
  rw [List.find?_map, Option.map_map]
  unfold lookupKey
  rw [Option.map_map]
  rfl

-- ============ mappings

/-- `{str(key): inner for key, inner in value.items()}`, empty for what is
not a mapping: the `_coerce_mapping` the runtime's modules share. -/
def coerceMapping : PyVal → List (String × PyVal)
  | .dict fields =>
    SortedMap.ofList (fields.map fun e => (e.1.text, e.2.canon))
  | _ => []

end WeaveRuntime.Python
