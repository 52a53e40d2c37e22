/-
Task lists as JSON documents.

`serialize` fails on one thing, a task whose status is `None`. Decoding
(`fromPayload`) is lenient: it strips texts, fills in what is missing and
derives the archive fields, so it gives back what was written only where
every field already has the form decoding gives it. `EntryImage` is that
form, and `fromPayload_serialize` the round trip.
-/
import WeaveRuntime.TaskLists.Invariant

namespace WeaveRuntime.TaskLists

open Lib
open Python

-- ============ encoding

def jsonSafeMapping (metadata : Metadata) : PyVal :=
  .dict (metadata.entries.map fun e => (.str e.1, jsonSafe e.2))

/-- An optional time as a value. -/
def optTime : Option Datetime → PyVal
  | some t => .str t.isoformat
  | none => .none

def entryFields (t : TaskListEntry) (status : String) :
    List (PyKey × PyVal) :=
  [(.str "task_id", .str t.taskId),
    (.str "subject", .str t.subject),
    (.str "description", optText t.description),
    (.str "active_form", optText t.activeForm),
    (.str "status", .str status),
    (.str "owner", optText t.owner),
    (.str "blocks", idList t.blocks),
    (.str "blocked_by", idList t.blockedBy),
    (.str "metadata", jsonSafeMapping t.metadata),
    (.str "is_archived", .bool t.isArchived),
    (.str "archived_at", optTime (t.archive.bind (·.archivedAt))),
    (.str "archived_by", optText (t.archive.bind (·.archivedBy))),
    (.str "created_at", .str t.createdAt.isoformat),
    (.str "updated_at", .str t.updatedAt.isoformat)]

theorem nodup_entryFields (t : TaskListEntry) (status : String) :
    ((entryFields t status).map Prod.fst).Nodup := by
  have hkeys : (entryFields t status).map Prod.fst
      = ["task_id", "subject", "description", "active_form", "status",
        "owner", "blocks", "blocked_by", "metadata", "is_archived",
        "archived_at", "archived_by", "created_at", "updated_at"].map
        PyKey.str := rfl
  rw [hkeys]
  decide

def TaskListEntry.serialize (t : TaskListEntry) : Except Raised PyVal := do
  let status ← statusValue t
  .ok (.dict (entryFields t status))

def snapshotFields (s : TaskListSnapshot) (tasks : List PyVal) :
    List (PyKey × PyVal) :=
  [(.str "list_id", .str s.listId),
    (.str "updated_at", .str s.updatedAt.isoformat),
    (.str "tasks", .list tasks)]

def TaskListSnapshot.serialize (s : TaskListSnapshot) :
    Except Raised PyVal := do
  let tasks ← s.tasks.mapM TaskListEntry.serialize
  .ok (.dict (snapshotFields s tasks))

-- ============ decoding

def payloadGet (payload : PyVal) (key : String) : PyVal :=
  match payload with
  | .dict fields => (lookupKey fields key).getD .none
  | _ => .none

/-- `_coerce_datetime`, of a value read from JSON. -/
def coerceDatetime : PyVal → Option Datetime
  | .str text => fromisoformat text
  | _ => none

def coerceBool (value : PyVal) (default_ : Bool) : Bool :=
  match value with
  | .bool b => b
  | .str text =>
    let lowered := (pyStrip text).toLower
    if lowered ∈ ["1", "true", "yes", "on"] then true
    else if lowered ∈ ["0", "false", "no", "off"] then false
    else default_
  | _ => default_

/-- `TaskListEntry.from_payload`; `spare` is the id generated where none
was stored. -/
def entryFromPayload (env : Env) (spare : UuidHex) (payload : PyVal) :
    Except Raised TaskListEntry := do
  let archivedAt := coerceDatetime (payloadGet payload "archived_at")
  let archivedBy := coerceOptionalString (payloadGet payload "archived_by")
  let isArchived := coerceBool (payloadGet payload "is_archived")
    (archivedAt.isSome || archivedBy.isSome)
  let status ← coerceTaskStatus (payloadGet payload "status")
  .ok
    { taskId := pyStr (pyOr (payloadGet payload "task_id") (.str spare.text))
      subject := pyStr (pyOr (payloadGet payload "subject") (.str ""))
      description := coerceOptionalString (payloadGet payload "description")
      activeForm := coerceOptionalString (payloadGet payload "active_form")
      status := some (status.getD .pending)
      owner := coerceOptionalString (payloadGet payload "owner")
      blocks := coerceStringSequence (payloadGet payload "blocks")
      blockedBy := coerceStringSequence (payloadGet payload "blocked_by")
      metadata :=
        SortedMap.build (coerceMapping (payloadGet payload "metadata"))
      archive := if isArchived then some ⟨archivedAt, archivedBy⟩ else none
      createdAt :=
        (coerceDatetime (payloadGet payload "created_at")).getD env.now
      updatedAt :=
        (coerceDatetime (payloadGet payload "updated_at")).getD env.now }

/-- Whether a value is a mapping. -/
def isMapping : PyVal → Bool
  | .dict _ => true
  | _ => false

def taskItems (payload : PyVal) : List PyVal :=
  match payloadGet payload "tasks" with
  | .list items => items
  | _ => []

def fromPayload (env : Env) (payload : PyVal) :
    Except Raised TaskListSnapshot := do
  let items := (taskItems payload).filter isMapping
  let tasks ← items.zipIdx.mapM fun e =>
    entryFromPayload env (env.spareHex e.2) e.1
  .ok (.build (pyStr (pyOr (payloadGet payload "list_id") (.str "")))
    tasks ((coerceDatetime (payloadGet payload "updated_at")).getD env.now))

-- ========= round trips

/-- An optional text as decoding gives it. -/
def TextImage (text : Option String) : Prop := ∀ s, text = some s → Stripped s

/-- A metadata value as decoding gives it: JSON writes it as it is. -/
def ValueImage (value : PyVal) : Prop :=
  jsonSafe value = value ∧ value.canon = value

theorem textImage_none : TextImage none := by
  intro s hs
  cases hs

theorem textImage_coerce (v : PyVal) : TextImage (coerceOptionalString v) :=
  fun _ hs => stripped_of_coerceOptionalString hs

@[simp] theorem canon_optText (text : Option String) :
    (optText text).canon = optText text := by
  cases text <;> rfl

@[simp] theorem canon_optTime (time : Option Datetime) :
    (optTime time).canon = optTime time := by
  cases time <;> rfl

@[simp] theorem canon_idList (ids : List String) :
    (idList ids).canon = idList ids := by
  unfold idList
  rw [PyVal.canon, canonItems_eq_map, List.map_map]
  rfl

theorem coerceOptionalString_optText {text : Option String}
    (h : TextImage text) : coerceOptionalString (optText text) = text := by
  cases text with
  | none => rfl
  | some s =>
    show coerceOptionalString (.str s) = some s
    rw [coerceOptionalString_str, stripOrNone_of_stripped (h s rfl)]

@[simp] theorem coerceDatetime_optTime (time : Option Datetime) :
    coerceDatetime (optTime time) = time := by
  cases time with
  | none => rfl
  | some t => exact fromisoformat_isoformat t

theorem coerceStringSequence_idList {ids : List String}
    (h : ∀ id ∈ ids, Stripped id) : coerceStringSequence (idList ids) = ids := by
  show (ids.map PyVal.str).filterMap coerceOptionalString = ids
  rw [List.filterMap_map]
  induction ids with
  | nil => rfl
  | cons id ids ih =>
    have hid : coerceOptionalString (.str id) = some id := by
      rw [coerceOptionalString_str,
        stripOrNone_of_stripped (h id (List.mem_cons_self ..))]
    have hcons : (coerceOptionalString ∘ PyVal.str) id = some id := hid
    rw [List.filterMap_cons_some hcons]
    exact congrArg _ (ih fun x hx => h x (List.mem_cons_of_mem _ hx))

theorem sorted_mappingFields (metadata : Metadata) :
    SortedMap.Sorted (metadata.entries.map fun e =>
      ((.str e.1, e.2) : PyKey × PyVal)) :=
  List.pairwise_map.2 (metadata.sorted.imp fun h => PyKey.str_lt_str h)

theorem jsonSafeMapping_eq {metadata : Metadata}
    (h : ∀ e ∈ metadata.entries, ValueImage e.2) :
    jsonSafeMapping metadata
      = .dict (metadata.entries.map fun e => (.str e.1, e.2)) := by
  unfold jsonSafeMapping
  refine congrArg PyVal.dict (List.map_congr_left fun e he => ?_)
  rw [(h e he).1]

theorem build_jsonSafeMapping {metadata : Metadata}
    (h : ∀ e ∈ metadata.entries, ValueImage e.2) :
    SortedMap.build (coerceMapping (jsonSafeMapping metadata).canon)
      = metadata := by
  have hcanon : canonFields (metadata.entries.map fun e =>
        ((.str e.1, e.2) : PyKey × PyVal))
      = metadata.entries.map fun e => (.str e.1, e.2) := by
    rw [canonFields_eq_map, List.map_map]
    refine List.map_congr_left fun e he => ?_
    exact Prod.ext rfl (h e he).2
  have hitems : (metadata.entries.map fun e =>
        ((.str e.1, e.2) : PyKey × PyVal)).map
        (fun e => (e.1.text, e.2.canon)) = metadata.entries := by
    rw [List.map_map]
    refine (List.map_congr_left fun e he => ?_).trans (List.map_id _)
    exact Prod.ext rfl (h e he).2
  rw [jsonSafeMapping_eq h, PyVal.canon, hcanon,
    SortedMap.ofList_of_sorted (sorted_mappingFields metadata)]
  show SortedMap.build (SortedMap.ofList _) = metadata
  rw [hitems, SortedMap.ofList_of_sorted metadata.sorted]
  exact metadata.build_entries

/-- The fields of a task as decoding gives them. -/
structure EntryImage (t : TaskListEntry) : Prop where
  taskId : t.taskId ≠ ""
  description : TextImage t.description
  activeForm : TextImage t.activeForm
  owner : TextImage t.owner
  archivedBy : TextImage (t.archive.bind (·.archivedBy))
  blocks : ∀ id ∈ t.blocks, Stripped id
  blockedBy : ∀ id ∈ t.blockedBy, Stripped id
  metadata : ∀ e ∈ t.metadata.entries, ValueImage e.2

theorem payloadGet_canon {fields : List (PyKey × PyVal)}
    (h : (fields.map Prod.fst).Nodup) (key : String) :
    payloadGet (PyVal.dict fields).canon key
      = ((lookupKey fields key).map PyVal.canon).getD .none := by
  rw [PyVal.canon]
  show (lookupKey _ key).getD .none = _
  rw [lookupKey_canon h]

theorem pyOr_str {s : String} (h : s ≠ "") (v : PyVal) :
    pyOr (.str s) v = .str s := by
  unfold pyOr
  rw [if_pos (by simpa [PyVal.truthy] using h)]

theorem pyStr_pyOr_empty (s : String) : pyStr (pyOr (.str s) (.str "")) = s := by
  by_cases h : s = ""
  · subst h
    rfl
  · rw [pyOr_str h, pyStr_str]

theorem entryFromPayload_serialize {t : TaskListEntry} (h : EntryImage t)
    {payload : PyVal} (hp : t.serialize = .ok payload) (env : Env)
    (spare : UuidHex) : entryFromPayload env spare payload.canon = .ok t := by
  unfold TaskListEntry.serialize at hp
  obtain ⟨value, hvalue, hp⟩ := bind_eq_ok.1 hp
  cases hp
  obtain ⟨status, hstatus, rfl⟩ : ∃ status, t.status = some status
      ∧ status.value = value := by
    unfold statusValue at hvalue
    split at hvalue
    · next status hs => exact ⟨status, hs, Except.ok.inj hvalue⟩
    · cases hvalue
  have hcoerce : coerceTaskStatus (.str status.value)
      = .ok (some status) := by
    cases status <;> rfl
  have harchive : (if t.isArchived then
      some ⟨t.archive.bind (·.archivedAt), t.archive.bind (·.archivedBy)⟩
      else none) = t.archive := by
    unfold TaskListEntry.isArchived
    cases t.archive <;> rfl
  have hget := payloadGet_canon (nodup_entryFields t status.value)
  unfold entryFromPayload
  simp only [hget]
  show (coerceTaskStatus (.str status.value) >>= fun decoded => .ok
    { taskId := pyStr (pyOr (.str t.taskId) (.str spare.text))
      subject := pyStr (pyOr (.str t.subject) (.str ""))
      description := coerceOptionalString (optText t.description).canon
      activeForm := coerceOptionalString (optText t.activeForm).canon
      status := some (decoded.getD .pending)
      owner := coerceOptionalString (optText t.owner).canon
      blocks := coerceStringSequence (idList t.blocks).canon
      blockedBy := coerceStringSequence (idList t.blockedBy).canon
      metadata :=
        SortedMap.build (coerceMapping (jsonSafeMapping t.metadata).canon)
      archive := if t.isArchived then
        some ⟨coerceDatetime (optTime (t.archive.bind (·.archivedAt))).canon,
          coerceOptionalString
            (optText (t.archive.bind (·.archivedBy))).canon⟩ else none
      createdAt := (fromisoformat t.createdAt.isoformat).getD env.now
      updatedAt := (fromisoformat t.updatedAt.isoformat).getD env.now })
    = .ok t
  rw [hcoerce, ok_bind, pyOr_str h.taskId, pyStr_str, pyStr_pyOr_empty]
  simp only [canon_optText, canon_optTime, canon_idList,
    coerceDatetime_optTime, fromisoformat_isoformat, Option.getD_some]
  rw [coerceOptionalString_optText h.description,
    coerceOptionalString_optText h.activeForm,
    coerceOptionalString_optText h.owner,
    coerceOptionalString_optText h.archivedBy,
    coerceStringSequence_idList h.blocks,
    coerceStringSequence_idList h.blockedBy,
    build_jsonSafeMapping h.metadata, harchive, ← hstatus]

theorem serialize_entry_iff {t : TaskListEntry} :
    (∃ payload, t.serialize = .ok payload) ↔ t.status ≠ none := by
  unfold TaskListEntry.serialize statusValue
  cases t.status with
  | none => simp
  | some status => simp

theorem isMapping_serialize {t : TaskListEntry} {payload : PyVal}
    (h : t.serialize = .ok payload) : isMapping payload.canon = true := by
  obtain ⟨value, -, h⟩ := bind_eq_ok.1 h
  cases h
  rfl

theorem entries_read_back {tasks : List TaskListEntry}
    (himage : ∀ t ∈ tasks, EntryImage t) {payloads : List PyVal}
    (h : tasks.mapM TaskListEntry.serialize = .ok payloads) (env : Env)
    (n : Nat) :
    (payloads.map PyVal.canon).filter isMapping = payloads.map PyVal.canon
      ∧ ((payloads.map PyVal.canon).zipIdx n).mapM
          (fun e => entryFromPayload env (env.spareHex e.2) e.1)
        = .ok tasks := by
  induction tasks generalizing payloads n with
  | nil =>
    cases h
    exact ⟨rfl, rfl⟩
  | cons t tasks ih =>
    rw [List.mapM_cons] at h
    obtain ⟨p, hp, h⟩ := bind_eq_ok.1 h
    obtain ⟨ps, hps, h⟩ := bind_eq_ok.1 h
    cases h
    obtain ⟨hfilter, hread⟩ :=
      ih (fun u hu => himage u (List.mem_cons_of_mem _ hu)) hps (n + 1)
    have ht := entryFromPayload_serialize
      (himage t (List.mem_cons_self ..)) hp env (env.spareHex n)
    refine ⟨?_, ?_⟩
    · rw [List.map_cons, List.filter_cons_of_pos (isMapping_serialize hp),
        hfilter]
    · rw [List.map_cons, List.zipIdx_cons, List.mapM_cons, ht, ok_bind,
        hread, ok_bind]
      rfl

/-- A serialized snapshot is read back, from the value its JSON text
holds. -/
theorem fromPayload_serialize {s : TaskListSnapshot}
    (himage : ∀ t ∈ s.tasks, EntryImage t) {payload : PyVal}
    (h : s.serialize = .ok payload) (env : Env) :
    fromPayload env (jsonReadBack payload) = .ok s := by
  unfold TaskListSnapshot.serialize at h
  obtain ⟨payloads, hpayloads, h⟩ := bind_eq_ok.1 h
  cases h
  obtain ⟨hfilter, hread⟩ := entries_read_back himage hpayloads env 0
  have hnodup : ((snapshotFields s payloads).map Prod.fst).Nodup := by
    have hkeys : (snapshotFields s payloads).map Prod.fst
        = ["list_id", "updated_at", "tasks"].map PyKey.str := rfl
    rw [hkeys]
    decide
  have hget := payloadGet_canon hnodup
  have hitems : taskItems (jsonReadBack (.dict (snapshotFields s payloads)))
      = payloads.map PyVal.canon := by
    unfold taskItems jsonReadBack
    rw [hget]
    exact canonItems_eq_map payloads
  unfold fromPayload
  rw [hitems, hfilter]
  dsimp only
  rw [hread, ok_bind]
  unfold jsonReadBack
  rw [hget, hget]
  show Except.ok (TaskListSnapshot.build
    (pyStr (pyOr (.str s.listId) (.str ""))) s.tasks
    ((fromisoformat s.updatedAt.isoformat).getD env.now)) = .ok s
  rw [pyStr_pyOr_empty, fromisoformat_isoformat, Option.getD_some,
    s.build_self]

theorem serialize_iff {s : TaskListSnapshot} :
    (∃ payload, s.serialize = .ok payload)
      ↔ ∀ t ∈ s.tasks, t.status ≠ none := by
  have hlist : ∀ tasks : List TaskListEntry,
      (∃ ps, tasks.mapM TaskListEntry.serialize = .ok ps)
        ↔ ∀ t ∈ tasks, t.status ≠ none := by
    intro tasks
    induction tasks with
    | nil => exact ⟨(fun _ t ht => by cases ht), fun _ => ⟨[], rfl⟩⟩
    | cons t tasks ih =>
      rw [List.forall_mem_cons, ← ih, ← serialize_entry_iff,
        List.mapM_cons]
      refine ⟨?_, ?_⟩
      · intro h
        obtain ⟨ps, h⟩ := h
        obtain ⟨p, hp, h⟩ := bind_eq_ok.1 h
        obtain ⟨qs, hqs, -⟩ := bind_eq_ok.1 h
        exact ⟨⟨p, hp⟩, ⟨qs, hqs⟩⟩
      · intro h
        obtain ⟨⟨p, hp⟩, ⟨qs, hqs⟩⟩ := h
        refine ⟨p :: qs, ?_⟩
        rw [hp, ok_bind, hqs, ok_bind]
        rfl
  rw [← hlist]
  unfold TaskListSnapshot.serialize
  refine ⟨?_, ?_⟩
  · intro h
    obtain ⟨payload, h⟩ := h
    obtain ⟨ps, hps, -⟩ := bind_eq_ok.1 h
    exact ⟨ps, hps⟩
  · intro h
    obtain ⟨ps, hps⟩ := h
    refine ⟨.dict (snapshotFields s ps), ?_⟩
    rw [hps, ok_bind]

end WeaveRuntime.TaskLists
