/-
JSON documents in insertion order.

The transcript stores write a value with `json.dumps` and read it with
`json.loads`, without sorting its keys. `jsonDumps` is the two of them
together: the value that comes back, or nothing where `json.dumps` raises
`TypeError`. The text between them is left out.

What may be written is a Python value that still tells a tuple from a
list (`Payload`); what is read back is a `PyVal`, and `Payload.ofVal`
looks at it as a payload again. A JSON value (`Payload.isJson`: string
keys, each once, no tuple and no object JSON does not know) comes back as
it was (`jsonDumps_ofVal`, `isJson_exists`), and so does whatever has been
read back once (`jsonDumps_jsonDumps`).
-/
import WeaveRuntime.Messages.Model

namespace WeaveRuntime.Transcripts

open Python Messages
open Jobs (Fields setField updateFields)

-- ==== payloads and values

/-- The scalar as a value. -/
def scalarVal : Scalar → PyVal
  | .none => .none
  | .bool b => .bool b
  | .int i => .int i
  | .float r => .float r
  | .str s => .str s
  | .other t => .other t

mutual

/-- A value, as a payload. -/
def ofVal : PyVal → Payload
  | .none => .scalar .none
  | .bool b => .scalar (.bool b)
  | .int i => .scalar (.int i)
  | .float r => .scalar (.float r)
  | .str s => .scalar (.str s)
  | .other t => .scalar (.other t)
  | .list items => .list (ofItems items)
  | .dict fields => .mapping (ofFields fields)

def ofItems : List PyVal → List Payload
  | [] => []
  | v :: vs => ofVal v :: ofItems vs

def ofFields : Fields → List (PyKey × Payload)
  | [] => []
  | (k, v) :: fs => (k, ofVal v) :: ofFields fs

end

-- ============= writing

section Dumps

variable (keyText : String → Option String) (defaultStr : Bool)

/-- The text of a key: `json.dumps` knows numbers, booleans and `None`
besides strings, and raises for the rest. -/
def jsonKey : PyKey → Option String
  | .str s => some s
  | .other t => keyText t

mutual

def jsonDumps : Payload → Option PyVal
  | .scalar (.other t) => if defaultStr then some (.str t) else none
  | .scalar value => some (scalarVal value)
  | .list items => (jsonDumpsItems items).map .list
  | .tuple items => (jsonDumpsItems items).map .list
  | .mapping fields => (jsonDumpsFields fields).map fun read =>
    .dict (updateFields [] read)

def jsonDumpsItems : List Payload → Option (List PyVal)
  | [] => some []
  | value :: items => do
    let read ← jsonDumps value
    let rest ← jsonDumpsItems items
    return read :: rest

/-- The fields as the text lists them, keys that are written alike more
than once. -/
def jsonDumpsFields : List (PyKey × Payload) → Option Fields
  | [] => some []
  | (key, value) :: fields => do
    let key ← jsonKey keyText key
    let read ← jsonDumps value
    let rest ← jsonDumpsFields fields
    return (.str key, read) :: rest

end

end Dumps

mutual

/-- Whether the payload is a JSON value. -/
def isJson : Payload → Bool
  | .scalar (.other _) => false
  | .scalar _ => true
  | .list items => isJsonItems items
  | .tuple _ => false
  | .mapping fields =>
    isJsonFields fields && decide (fields.map Prod.fst).Nodup

def isJsonItems : List Payload → Bool
  | [] => true
  | value :: items => isJson value && isJsonItems items

def isJsonFields : List (PyKey × Payload) → Bool
  | [] => true
  | (.str _, value) :: fields => isJson value && isJsonFields fields
  | (.other _, _) :: _ => false

end

/-- Whether a mapping of values is a JSON value. -/
def fieldsJson (fields : Fields) : Bool := isJson (ofVal (.dict fields))

-- ====== keys of fields

theorem map_fst_ofFields (fields : Fields) :
    (ofFields fields).map Prod.fst = fields.map Prod.fst := by
  induction fields with
  | nil => rfl
  | cons f fs ih =>
    obtain ⟨k, v⟩ := f
    rw [ofFields, List.map_cons, List.map_cons, ih]

theorem setField_of_not_mem {fields : Fields} {key : PyKey} {value : PyVal}
    (h : key ∉ fields.map Prod.fst) :
    setField fields key value = fields ++ [(key, value)] := by
  induction fields with
  | nil => rfl
  | cons f fs ih =>
    obtain ⟨k, v⟩ := f
    rw [List.map_cons, List.mem_cons, not_or] at h
    rw [setField, if_neg (Ne.symm h.1), ih h.2, List.cons_append]

theorem updateFields_append {read acc : Fields}
    (h : ((acc ++ read).map Prod.fst).Nodup) :
    updateFields acc read = acc ++ read := by
  unfold updateFields
  induction read generalizing acc with
  | nil => rw [List.foldl_nil, List.append_nil]
  | cons f fs ih =>
    obtain ⟨k, v⟩ := f
    have hk : k ∉ acc.map Prod.fst := by
      intro hmem
      rw [List.map_append, List.map_cons, List.nodup_append] at h
      exact h.2.2 k hmem k (List.mem_cons_self ..) rfl
    rw [List.foldl_cons, setField_of_not_mem hk]
    have hsplit : acc ++ (k, v) :: fs = (acc ++ [(k, v)]) ++ fs := by simp
    rw [hsplit] at h
    rw [ih h, hsplit]

theorem map_fst_setField (fields : Fields) (key : PyKey) (value : PyVal) :
    (setField fields key value).map Prod.fst
      = if key ∈ fields.map Prod.fst then fields.map Prod.fst
        else fields.map Prod.fst ++ [key] := by
  induction fields with
  | nil => rfl
  | cons f fs ih =>
    obtain ⟨k, v⟩ := f
    rw [setField]
    by_cases hk : k = key
    · rw [if_pos hk, List.map_cons, List.map_cons,
        if_pos (by rw [hk]; exact List.mem_cons_self ..)]
    · rw [if_neg hk, List.map_cons, List.map_cons, ih]
      by_cases hmem : key ∈ fs.map Prod.fst
      · rw [if_pos hmem, if_pos (List.mem_cons_of_mem _ hmem)]
      · rw [if_neg hmem, if_neg, List.cons_append]
        rw [List.mem_cons, not_or]
        exact ⟨Ne.symm hk, hmem⟩

theorem nodup_setField {fields : Fields} {key : PyKey} {value : PyVal}
    (h : (fields.map Prod.fst).Nodup) :
    ((setField fields key value).map Prod.fst).Nodup := by
  rw [map_fst_setField]
  split
  · exact h
  · next hmem =>
    refine List.nodup_append.2 ⟨h, by simp, ?_⟩
    intro a ha b hb hab
    rw [List.mem_singleton] at hb
    exact hmem (hb ▸ hab ▸ ha)

theorem mem_setField {fields : Fields} {key : PyKey} {value : PyVal}
    {e : PyKey × PyVal} (h : e ∈ setField fields key value) :
    e = (key, value) ∨ e ∈ fields := by
  induction fields with
  | nil => exact Or.inl (List.mem_singleton.1 h)
  | cons f fs ih =>
    obtain ⟨k, v⟩ := f
    rw [setField] at h
    split at h
    · next hk =>
      rcases List.mem_cons.1 h with rfl | h
      · exact Or.inl (by rw [hk])
      · exact Or.inr (List.mem_cons_of_mem _ h)
    · rcases List.mem_cons.1 h with rfl | h
      · exact Or.inr (List.mem_cons_self ..)
      · exact (ih h).imp_right (List.mem_cons_of_mem _)

theorem updateFields_build {read acc : Fields}
    (h : (acc.map Prod.fst).Nodup) :
    ((updateFields acc read).map Prod.fst).Nodup
      ∧ ∀ e ∈ updateFields acc read, e ∈ acc ∨ e ∈ read := by
  unfold updateFields
  induction read generalizing acc with
  | nil => exact ⟨h, fun e he => Or.inl he⟩
  | cons f fs ih =>
    rw [List.foldl_cons]
    obtain ⟨hnodup, hmem⟩ := ih (nodup_setField h)
    refine ⟨hnodup, fun e he => ?_⟩
    rcases hmem e he with h' | h'
    · rcases mem_setField h' with rfl | h''
      · exact Or.inr (List.mem_cons_self ..)
      · exact Or.inl h''
    · exact Or.inr (List.mem_cons_of_mem _ h')

-- ========= JSON values

theorem isJsonFields_ofFields {fields : Fields} :
    isJsonFields (ofFields fields) = true
      ↔ ∀ e ∈ fields, e.1 = .str e.1.text ∧ isJson (ofVal e.2) = true := by
  induction fields with
  | nil => simp [ofFields, isJsonFields]
  | cons f fs ih =>
    obtain ⟨k, v⟩ := f
    cases k with
    | str s => simp [ofFields, isJsonFields, ih, PyKey.text]
    | other t => simp [ofFields, isJsonFields]

theorem isJsonItems_ofItems {items : List PyVal} :
    isJsonItems (ofItems items) = true
      ↔ ∀ v ∈ items, isJson (ofVal v) = true := by
  induction items with
  | nil => simp [ofItems, isJsonItems]
  | cons v vs ih => simp [ofItems, isJsonItems, ih]

/-- A mapping of values is JSON: string keys, each once, over JSON
values. -/
theorem fieldsJson_iff {fields : Fields} :
    fieldsJson fields = true
      ↔ (∀ e ∈ fields, e.1 = .str e.1.text ∧ isJson (ofVal e.2) = true)
        ∧ (fields.map Prod.fst).Nodup := by
  unfold fieldsJson
  rw [ofVal, isJson, Bool.and_eq_true, isJsonFields_ofFields,
    decide_eq_true_iff, map_fst_ofFields]

mutual

theorem isJson_exists {p : Payload} (h : isJson p = true) :
    ∃ v, ofVal v = p := by
  cases p with
  | scalar value =>
    cases value with
    | none => exact ⟨.none, rfl⟩
    | bool b => exact ⟨.bool b, rfl⟩
    | int i => exact ⟨.int i, rfl⟩
    | float r => exact ⟨.float r, rfl⟩
    | str s => exact ⟨.str s, rfl⟩
    | other t => exact absurd h (by simp [isJson])
  | list items =>
    obtain ⟨vs, hvs⟩ := isJsonItems_exists h
    exact ⟨.list vs, by rw [ofVal, hvs]⟩
  | tuple items => exact absurd h (by simp [isJson])
  | mapping fields =>
    rw [isJson, Bool.and_eq_true] at h
    obtain ⟨fs, hfs⟩ := isJsonFields_exists h.1
    exact ⟨.dict fs, by rw [ofVal, hfs]⟩

theorem isJsonItems_exists {items : List Payload}
    (h : isJsonItems items = true) : ∃ vs, ofItems vs = items := by
  cases items with
  | nil => exact ⟨[], rfl⟩
  | cons p ps =>
    rw [isJsonItems, Bool.and_eq_true] at h
    obtain ⟨v, hv⟩ := isJson_exists h.1
    obtain ⟨vs, hvs⟩ := isJsonItems_exists h.2
    exact ⟨v :: vs, by rw [ofItems, hv, hvs]⟩

theorem isJsonFields_exists {fields : List (PyKey × Payload)}
    (h : isJsonFields fields = true) : ∃ fs, ofFields fs = fields := by
  cases fields with
  | nil => exact ⟨[], rfl⟩
  | cons f fs =>
    obtain ⟨k, p⟩ := f
    cases k with
    | other t => exact absurd h (by simp [isJsonFields])
    | str s =>
      rw [isJsonFields, Bool.and_eq_true] at h
      obtain ⟨v, hv⟩ := isJson_exists h.1
      obtain ⟨vs, hvs⟩ := isJsonFields_exists h.2
      exact ⟨(.str s, v) :: vs, by rw [ofFields, hv, hvs]⟩

end

-- ====== the round trip

section RoundTrip

variable {keyText : String → Option String} {defaultStr : Bool}

mutual

theorem jsonDumps_ofVal {v : PyVal} (h : isJson (ofVal v) = true) :
    jsonDumps keyText defaultStr (ofVal v) = some v := by
  cases v with
  | other t => exact absurd h (by simp [ofVal, isJson])
  | list items =>
    rw [ofVal, isJson] at h
    rw [ofVal, jsonDumps, jsonDumpsItems_ofItems h]
    rfl
  | dict fields =>
    rw [ofVal, isJson, Bool.and_eq_true, decide_eq_true_iff,
      map_fst_ofFields] at h
    rw [ofVal, jsonDumps, jsonDumpsFields_ofFields h.1]
    have hbuild : updateFields [] fields = fields :=
      updateFields_append h.2
    rw [Option.map_some, hbuild]
  | _ => rfl

theorem jsonDumpsItems_ofItems {vs : List PyVal}
    (h : isJsonItems (ofItems vs) = true) :
    jsonDumpsItems keyText defaultStr (ofItems vs) = some vs := by
  cases vs with
  | nil => rfl
  | cons v vs =>
    rw [ofItems, isJsonItems, Bool.and_eq_true] at h
    rw [ofItems, jsonDumpsItems, jsonDumps_ofVal h.1,
      jsonDumpsItems_ofItems h.2]
    rfl

theorem jsonDumpsFields_ofFields {fs : Fields}
    (h : isJsonFields (ofFields fs) = true) :
    jsonDumpsFields keyText defaultStr (ofFields fs) = some fs := by
  cases fs with
  | nil => rfl
  | cons f fs =>
    obtain ⟨k, v⟩ := f
    cases k with
    | other t => exact absurd h (by simp [ofFields, isJsonFields])
    | str s =>
      rw [ofFields, isJsonFields, Bool.and_eq_true] at h
      rw [ofFields, jsonDumpsFields, jsonDumps_ofVal h.1,
        jsonDumpsFields_ofFields h.2]
      rfl

end

mutual

theorem isJson_of_jsonDumps {p : Payload} {v : PyVal}
    (h : jsonDumps keyText defaultStr p = some v) :
    isJson (ofVal v) = true := by
  cases p with
  | scalar value =>
    cases value with
    | other t =>
      rw [jsonDumps] at h
      split at h
      · cases h
        rfl
      · cases h
    | _ => cases h; rfl
  | mapping fields =>
    rw [jsonDumps, Option.map_eq_some_iff] at h
    obtain ⟨fs, hfs, rfl⟩ := h
    refine fieldsJson_iff.2 ?_
    have hbuild : ((updateFields [] fs).map Prod.fst).Nodup
        ∧ ∀ e ∈ updateFields [] fs, e ∈ [] ∨ e ∈ fs :=
      updateFields_build List.nodup_nil
    obtain ⟨hnodup, hmem⟩ := hbuild
    refine ⟨fun e he => ?_, hnodup⟩
    exact isJson_of_jsonDumpsFields hfs e
      ((hmem e he).resolve_left List.not_mem_nil)
  | _ =>
    rw [jsonDumps, Option.map_eq_some_iff] at h
    obtain ⟨vs, hvs, rfl⟩ := h
    rw [ofVal, isJson, isJsonItems_ofItems]
    exact isJson_of_jsonDumpsItems hvs

theorem isJson_of_jsonDumpsItems {ps : List Payload} {vs : List PyVal}
    (h : jsonDumpsItems keyText defaultStr ps = some vs) :
    ∀ v ∈ vs, isJson (ofVal v) = true := by
  cases ps with
  | nil =>
    cases h
    intro v hv
    cases hv
  | cons p ps =>
    simp only [jsonDumpsItems, Option.bind_eq_bind,
      Option.bind_eq_some_iff] at h
    obtain ⟨w, hw, ws, hws, hvs⟩ := h
    cases hvs
    intro v hv
    rcases List.mem_cons.1 hv with rfl | hv
    · exact isJson_of_jsonDumps hw
    · exact isJson_of_jsonDumpsItems hws v hv

theorem isJson_of_jsonDumpsFields {ps : List (PyKey × Payload)}
    {fs : Fields} (h : jsonDumpsFields keyText defaultStr ps = some fs) :
    ∀ e ∈ fs, e.1 = .str e.1.text ∧ isJson (ofVal e.2) = true := by
  cases ps with
  | nil =>
    cases h
    intro e he
    cases he
  | cons p ps =>
    obtain ⟨k, p⟩ := p
    simp only [jsonDumpsFields, Option.bind_eq_bind,
      Option.bind_eq_some_iff] at h
    obtain ⟨key, -, w, hw, ws, hws, hfs⟩ := h
    cases hfs
    intro e he
    rcases List.mem_cons.1 he with rfl | he
    · exact ⟨rfl, isJson_of_jsonDumps hw⟩
    · exact isJson_of_jsonDumpsFields hws e he

end

/-- What has been read back once comes back as it is, whatever the options
of the second writing. -/
theorem jsonDumps_jsonDumps {defaultStr' : Bool} {p : Payload} {v : PyVal}
    (h : jsonDumps keyText defaultStr p = some v) :
    jsonDumps keyText defaultStr' (ofVal v) = some v :=
  jsonDumps_ofVal (isJson_of_jsonDumps h)

end RoundTrip

end WeaveRuntime.Transcripts
