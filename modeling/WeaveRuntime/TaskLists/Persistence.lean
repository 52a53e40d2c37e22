/-
Task lists on disk.

The file store keeps one JSON document per list, under a name made of the
list id's safe characters and twelve digits of its SHA-1. The hash is a
parameter: two ids may share a name.

# The two services

`paired` runs one service over the in-memory store and one over the file
store on the same calls. They stay the same (`Mirrors`) as long as every
saved snapshot serializes, decodes to itself, and takes no other list's
file. The fields of a task are kept in the form decoding gives them by
every operation (`Imaged`). What breaks the rest is a patch whose status
is `None`: the in-memory store keeps a task without a status, which the
file store cannot write.
-/
import WeaveRuntime.TaskLists.Codec

namespace WeaveRuntime.TaskLists

open Lib
open Python

-- ====== the file store

/-- A character the store keeps in a file name. -/
def isSafeFilenameChar (c : Char) : Bool :=
  c.isAlphanum || c = '.' || c = '_' || c = '-'

/-- Replace each run of other characters by one underscore. -/
def safeFilenameChars (inRun : Bool) : List Char → List Char
  | [] => []
  | c :: cs =>
    if isSafeFilenameChar c then c :: safeFilenameChars false cs
    else if inRun then safeFilenameChars true cs
    else '_' :: safeFilenameChars true cs

/-- `text.strip("._")`. -/
def stripDots (cs : List Char) : List Char :=
  let isDot := fun c => c = '.' || c = '_'
  ((cs.dropWhile isDot).reverse.dropWhile isDot).reverse

/-- The readable part of a file name. -/
def safePrefix (listId : String) : String :=
  let kept := stripDots (safeFilenameChars false listId.toList)
  if kept = [] then "task_list" else String.ofList kept

/-- `_path_for`, the name under the store's root; `sha1Hex` is the
hexadecimal SHA-1 of an id. -/
def pathFor (sha1Hex : String → String) (listId : String) : String :=
  safePrefix listId ++ "--" ++ String.ofList ((sha1Hex listId).toList.take 12)
    ++ ".json"

def fileTaskListStore (sha1Hex : String → String) :
    Store (Dict String PyVal) where
  load files env listId :=
    match files.get? (pathFor sha1Hex listId) with
    | none => .ok none
    | some document =>
      if isMapping document then do
        let snapshot ← fromPayload env document
        .ok (if snapshot.listId ≠ listId then none else some snapshot)
      else .ok none
  save files snapshot := do
    let payload ← snapshot.serialize
    .ok (files.insert (pathFor sha1Hex snapshot.listId)
      (jsonReadBack payload))
  listSnapshots files env := do
    let documents :=
      ((files.keys.insertionSort (· ≤ ·)).filterMap files.get?).filter
        isMapping
    let snapshots ← documents.mapM (fromPayload env)
    .ok (snapshots.insertionSort fun a b => a.listId ≤ b.listId)

-- ==== the fields of a list

/-- A JSON mapping, or nothing `_coerce_mapping` takes anything from. -/
def jsonMetadata : PyVal → Bool
  | .dict fields => fields.all fun e => e.2.isJson
  | _ => true

/-- The metadata an operation is given is JSON-valued. -/
def Op.jsonMetadata : Op → Bool
  | .create _ _ _ _ _ _ metadata => TaskLists.jsonMetadata metadata
  | .update _ patch _ =>
    TaskLists.jsonMetadata ((lookupKey patch "metadata").getD .none)
  | _ => true

/-- The same of a call. -/
def Request.jsonMetadata : Request → Bool
  | .onList _ op => op.jsonMetadata
  | .listSnapshots => true

theorem valueImage_coerceMapping {metadata : PyVal}
    (h : jsonMetadata metadata = true) :
    ∀ e ∈ coerceMapping metadata, ValueImage e.2 := by
  cases metadata with
  | dict fields =>
    intro e he
    obtain ⟨f, hf, rfl⟩ := List.mem_map.1 (SortedMap.mem_of_mem_ofList he)
    have hjson : f.2.isJson = true := List.all_eq_true.1 h f hf
    exact ⟨jsonSafe_canon hjson, canon_canon f.2⟩
  | _ => exact fun e he => by cases he

/-- The fields of a task an operation keeps as decoding gives them, but
for the tuples. -/
structure FieldImage (t : TaskListEntry) : Prop where
  taskId : Stripped t.taskId
  description : TextImage t.description
  activeForm : TextImage t.activeForm
  owner : TextImage t.owner
  archivedBy : TextImage (t.archive.bind (·.archivedBy))
  metadata : ∀ e ∈ t.metadata.entries, ValueImage e.2

def Imaged (tasks : List TaskListEntry) : Prop := ∀ t ∈ tasks, FieldImage t

theorem Imaged.entryImage {tasks : List TaskListEntry} (h : Imaged tasks)
    (hlinked : Linked tasks) : ∀ t ∈ tasks, EntryImage t := by
  have hids : ∀ x ∈ taskIds tasks, Stripped x := by
    intro x hx
    obtain ⟨u, hu, rfl⟩ := List.mem_map.1 hx
    exact (h u hu).taskId
  intro t ht
  obtain ⟨hid, hdesc, hform, hown, hby, hmeta⟩ := h t ht
  exact ⟨hid.2, hdesc, hform, hown, hby,
    fun x hx => hids x (hlinked.closed t ht x (Or.inl hx)),
    fun x hx => hids x (hlinked.closed t ht x (Or.inr hx)), hmeta⟩

theorem textImage_patchedText {patch : Patch} {field : String}
    {current : Option String} (h : TextImage current) :
    TextImage (patchedText patch field current) := by
  unfold patchedText
  split
  · exact h
  · exact textImage_coerce _

theorem Edit.fieldImage {now : Datetime} {op : Op} {t u : TaskListEntry}
    (h : Edit now op t u) (ht : FieldImage t) (hjson : op.jsonMetadata = true) :
    FieldImage u := by
  obtain ⟨hid, hdesc, hform, hown, hby, hmeta⟩ := ht
  cases h with
  | @patch _ _ patch =>
    refine ⟨hid, textImage_patchedText hdesc, textImage_patchedText hform,
      hown, hby, ?_⟩
    intro e he
    have he' : e ∈ (patchedMetadata t patch).entries := he
    unfold patchedMetadata at he'
    split at he'
    · exact hmeta e he'
    · next value hvalue =>
      have hjson' : jsonMetadata ((lookupKey patch "metadata").getD .none)
          = true := hjson
      rw [hvalue] at hjson'
      rcases SortedMap.mem_update he' with he' | he'
      · exact valueImage_coerceMapping hjson' e he'
      · exact hmeta e he'
  | archive archivedBy =>
    exact ⟨hid, hdesc, hform, hown, textImage_coerce archivedBy, hmeta⟩
  | unarchive => exact ⟨hid, hdesc, hform, hown, textImage_none, hmeta⟩
  | assign _ howner =>
    refine ⟨hid, hdesc, hform, ?_, hby, hmeta⟩
    rcases howner with rfl | rfl | ⟨v, rfl⟩
    · exact hown
    · exact textImage_none
    · exact textImage_coerce v

variable {s : TaskListSnapshot}

theorem Saves.imaged {s' : TaskListSnapshot} {env : Env} {op : Op}
    (hs : Saves s env op s') (h : Imaged s.tasks)
    (hjson : op.jsonMetadata = true) : Imaged s'.tasks := by
  intro t' ht'
  obtain ⟨u, hu, blocks, blockedBy, updatedAt, rfl⟩ := hs.entries t' ht'
  have himage : FieldImage u := by
    cases hu with
    | old ht => exact h u ht
    | edit ht hedit => exact hedit.fieldImage (h _ ht) hjson
    | new hnew m hop hmeta =>
      obtain ⟨a, b, c, d, e, f, rfl⟩ := hop
      obtain ⟨v, hdesc⟩ := hnew.description
      obtain ⟨w, hform⟩ := hnew.activeForm
      obtain ⟨x, hown⟩ := hnew.owner
      refine ⟨?_, ?_, ?_, ?_, ?_, ?_⟩
      · rw [hnew.taskId]
        exact env.hex.stripped
      · rw [hdesc]
        exact textImage_coerce v
      · rw [hform]
        exact textImage_coerce w
      · rw [hown]
        exact textImage_coerce x
      · rw [hnew.archive]
        exact textImage_none
      · rw [hmeta]
        intro e he
        exact valueImage_coerceMapping hjson e (SortedMap.mem_of_mem_ofList he)
  exact ⟨himage.taskId, himage.description, himage.activeForm, himage.owner,
    himage.archivedBy, himage.metadata⟩

-- ======== the statuses

def HasStatuses (s : TaskListSnapshot) : Prop :=
  ∀ t ∈ s.tasks, t.status ≠ none

def SetsNoStatus (s : TaskListSnapshot) : Op → Prop
  | .update taskId patch _ =>
    lookupKey patch "status" = some .none ∧ unsupportedFields patch = []
    ∧ (∃ t ∈ s.tasks, t.taskId = taskId ∧ t.isArchived = false)
    ∧ ∀ value, lookupKey patch "subject" = some value →
      coerceOptionalString value ≠ none
  | _ => False

theorem coerceTaskStatus_eq_none {value : PyVal}
    (h : coerceTaskStatus value = .ok none) : value = .none := by
  unfold coerceTaskStatus at h
  split at h
  · rfl
  · split at h
    · cases h
    · cases h

/-- A save keeps a status on every task, unless it is that of such an
update. -/
theorem Saves.hasStatuses {s' : TaskListSnapshot} {env : Env} {op : Op}
    (hs : Saves s env op s') (h : HasStatuses s) (hop : ¬ SetsNoStatus s op) :
    HasStatuses s' := by
  intro t' ht'
  obtain ⟨u, hu, blocks, blockedBy, updatedAt, rfl⟩ := hs.entries t' ht'
  cases hu with
  | old ht => exact h u ht
  | new hnew =>
    show u.status ≠ none
    rw [hnew.status]
    exact Option.some_ne_none _
  | @edit t _ ht hedit =>
    cases hedit with
    | @patch _ taskId patch _ _ status hid hopen hfields hsubject hstatus =>
      intro hnone
      have hnone' : status = none := hnone
      rw [hnone'] at hstatus
      unfold patchedStatus at hstatus
      split at hstatus
      · exact h t ht (Except.ok.inj hstatus)
      · next value hvalue =>
        rw [coerceTaskStatus_eq_none hstatus] at hvalue
        refine hop ⟨hvalue, hfields, ⟨t, ht, hid, hopen⟩, ?_⟩
        intro v hv hcoerce
        unfold patchedSubject at hsubject
        rw [hv] at hsubject
        have hsome := orRaise_eq_ok.1 hsubject
        rw [hcoerce] at hsome
        cases hsome
    | assign _ _ hstatus =>
      rcases hstatus with hstatus | hstatus
      · show _ ≠ none
        rw [hstatus]
        exact h t ht
      · exact hstatus
    | _ => exact h t ht

theorem apply_setsNoStatus (hs : Linked s.tasks) (env : Env) {op : Op}
    (h : SetsNoStatus s op) :
    ∃ r s', apply s env op = .ok (r, some s') ∧ ¬ HasStatuses s' := by
  cases op with
  | update taskId patch strict =>
    obtain ⟨hvalue, hfields, ⟨t, ht, rfl, hopen⟩, hsubject⟩ := h
    obtain ⟨i, hi, hget⟩ := hs.findTaskIndex_eq ht s.listId
    have hne : patch ≠ [] := by
      intro hnil
      rw [hnil] at hvalue
      cases hvalue
    have hallowed : ¬ ∀ f ∈ allowedFields, lookupKey patch f = none := by
      intro hall
      rw [hall "status" (by decide)] at hvalue
      cases hvalue
    obtain ⟨subject, hsubj⟩ : ∃ subject,
        patchedSubject t patch = .ok subject := by
      unfold patchedSubject
      cases hlook : lookupKey patch "subject" with
      | none => exact ⟨_, rfl⟩
      | some value =>
        obtain ⟨o, ho⟩ := Option.ne_none_iff_exists'.1
          (hsubject value hlook)
        exact ⟨o, orRaise_eq_ok.2 ho⟩
    have hstatus : patchedStatus t patch = .ok none := by
      unfold patchedStatus
      rw [hvalue]
      rfl
    let updated : TaskListEntry := { t with
      subject
      description := patchedText patch "description" t.description
      activeForm := patchedText patch "active_form" t.activeForm
      status := none
      metadata := patchedMetadata t patch
      updatedAt := env.now }
    have hpatch : applyPatch t patch env.now = .ok updated := by
      unfold applyPatch
      rw [raiseIf_of_not (not_not.2 hfields), ok_bind,
        raiseIf_of_not hallowed, ok_bind, hsubj, ok_bind, hstatus, ok_bind]
    have hsingle : checkSingleInProgress strict s.tasks s.listId t.taskId
        updated.status = .ok () := if_neg fun hand => by cases hand.2
    refine ⟨.task updated,
      s.replace (s.tasks.set i updated) updated.updatedAt, ?_, ?_⟩
    · show update s env t.taskId patch strict = _
      unfold update
      rw [raiseIf_of_not hne, ok_bind, hi, ok_bind]
      dsimp only
      rw [hget, mutable_of_not_archived _ hopen, ok_bind, hpatch, ok_bind,
        hsingle, ok_bind]
    · intro hall
      have hmem : updated ∈ (s.replace (s.tasks.set i updated)
          updated.updatedAt).tasks :=
        (s.perm_replace _ _).mem_iff.2 (List.mem_set i.isLt updated)
      exact hall updated hmem rfl
  | _ => cases h

-- ==== the two services

section Paired

variable (sha1Hex : String → String)

/-- The stores of the two services. -/
abbrev Stores := Dict String TaskListSnapshot × Dict String PyVal

/-- Nothing stored in either. -/
def noLists : Stores := (Dict.empty, Dict.empty)

/-- The two services on the same calls, with JSON-valued metadata. -/
def paired : System Stores (Env × Request) where
  step st c :=
    if c.2.jsonMetadata then
      ((service inMemoryTaskListStore).step st.1 c).bind fun mem =>
        ((service (fileTaskListStore sha1Hex)).step st.2 c).map fun files =>
          (mem, files)
    else none

/-- A snapshot that survives: every task has a status, it serializes, and
decoding its JSON gives it back. -/
def Persists (s : TaskListSnapshot) : Prop :=
  HasStatuses s ∧ ∃ payload, s.serialize = .ok payload
    ∧ ∀ env, fromPayload env (jsonReadBack payload) = .ok s

/-- A call that is an update setting no status. -/
def StoresNoStatus (mem : Dict String TaskListSnapshot)
    (c : Env × Request) : Prop :=
  match c.2 with
  | .onList listId op => SetsNoStatus (loadInMemory mem c.1 listId) op
  | .listSnapshots => False

def DistinctFiles (mem : Dict String TaskListSnapshot) : Prop :=
  ∀ a ∈ mem.keys, ∀ b ∈ mem.keys,
    pathFor sha1Hex a = pathFor sha1Hex b → a = b

/-- The files are the documents of the lists in memory. -/
def Mirrors (st : Stores) : Prop :=
  ∀ name document, st.2.get? name = some document
    ↔ ∃ listId s payload, st.1.get? listId = some s
      ∧ pathFor sha1Hex listId = name ∧ s.serialize = .ok payload
      ∧ jsonReadBack payload = document

/-- What holds of the lists in memory whatever the calls were. -/
structure Kept (mem : Dict String TaskListSnapshot) : Prop where
  sound : Sound mem
  imaged : ∀ listId s, mem.get? listId = some s → Imaged s.tasks

/-- What holds of both stores while nothing is lost. -/
structure Faithful (st : Stores) : Prop where
  statuses : ∀ listId s, st.1.get? listId = some s → HasStatuses s
  distinct : DistinctFiles sha1Hex st.1
  mirrors : Mirrors sha1Hex st

variable {sha1Hex}

variable {c : Env × Request} {listId : String}
  {mem : Dict String TaskListSnapshot} {s s' : TaskListSnapshot} {st : Stores}

theorem paired_step {st' : Stores}
    (h : (paired sha1Hex).step st c = some st') :
    c.2.jsonMetadata = true
      ∧ Enabled inMemoryTaskListStore st.1 c.1 c.2
      ∧ st' = (stateAfter inMemoryTaskListStore st.1 c.1 c.2,
        stateAfter (fileTaskListStore sha1Hex) st.2 c.1 c.2) := by
  unfold paired at h
  dsimp only at h
  split at h
  · next hjson =>
    obtain ⟨mem, hmem, h⟩ := Option.bind_eq_some_iff.1 h
    obtain ⟨files, hfiles, h⟩ := Option.map_eq_some_iff.1 h
    unfold service at hmem hfiles
    dsimp only at hmem hfiles
    split at hmem
    · next henabled =>
      split at hfiles
      · cases hmem
        cases hfiles
        exact ⟨hjson, henabled, h.symm⟩
      · cases hfiles
    · cases hmem
  · cases h

theorem stateAfter_inMemory (mem : Dict String TaskListSnapshot) (env : Env)
    (listId : String) (op : Op) :
    stateAfter inMemoryTaskListStore mem env (.onList listId op)
      = ((apply (loadInMemory mem env listId) env op).toOption.elim mem
        fun outcome => saveInMemory mem outcome.2) := by
  unfold stateAfter
  rw [call_inMemory]
  cases apply (loadInMemory mem env listId) env op <;> rfl

theorem Kept.load (h : Kept mem) (env : Env) (listId : String) :
    Imaged (loadInMemory mem env listId).tasks := by
  cases hget : mem.get? listId with
  | some s =>
    rw [loadInMemory_stored hget]
    exact h.imaged listId s hget
  | none =>
    rw [loadInMemory_absent hget]
    intro t ht
    cases ht

theorem Kept.saves (h : Kept mem) {env : Env} {op : Op} {r : Result}
    (henabled : Enabled inMemoryTaskListStore mem env (.onList listId op))
    (happly : apply (loadInMemory mem env listId) env op = .ok (r, some s')) :
    Saves (loadInMemory mem env listId) env op s' :=
  apply_saves (h.sound.load env listId).2.toLinked
    (fresh_loadInMemory henabled) happly

theorem Kept.step {st' : Stores} (h : Kept st.1)
    (hstep : (paired sha1Hex).step st c = some st') : Kept st'.1 := by
  obtain ⟨hjson, henabled, rfl⟩ := paired_step hstep
  obtain ⟨env, request⟩ := c
  cases request with
  | listSnapshots => exact h
  | onList listId op =>
    rw [stateAfter_inMemory]
    cases happly : apply (loadInMemory st.1 env listId) env op with
    | error e => exact h
    | ok outcome =>
      obtain ⟨r, next⟩ := outcome
      refine ⟨h.sound.save henabled happly, ?_⟩
      cases next with
      | none => exact h.imaged
      | some s' =>
        intro id s hget
        have hget' : (st.1.insert s'.listId s').get? id = some s := hget
        rw [Dict.get?_insert] at hget'
        split at hget'
        · cases hget'
          exact (h.saves henabled happly).imaged (h.load env listId) hjson
        · exact h.imaged id s hget'

theorem Kept.persists (h : Kept mem) (hget : mem.get? listId = some s)
    (hstatus : HasStatuses s) : Persists s := by
  obtain ⟨payload, hpayload⟩ := serialize_iff.2 hstatus
  have himage := (h.imaged listId s hget).entryImage
    (h.sound listId s hget).2.toLinked
  exact ⟨hstatus, payload, hpayload,
    fun env => fromPayload_serialize himage hpayload env⟩

theorem isMapping_readBack {payload : PyVal} (h : s.serialize = .ok payload) :
    isMapping (jsonReadBack payload) = true := by
  obtain ⟨tasks, -, h⟩ := bind_eq_ok.1 h
  cases h
  rfl

/-- While nothing is lost, a file decodes to the list it is named after. -/
theorem Faithful.decode (h : Faithful sha1Hex st) (hkept : Kept st.1)
    (env : Env) {name : String} {document : PyVal}
    (hfile : st.2.get? name = some document) :
    isMapping document = true
      ∧ ∃ s, fromPayload env document = .ok s
        ∧ st.1.get? s.listId = some s ∧ pathFor sha1Hex s.listId = name := by
  obtain ⟨id, s, payload, hget, hpath, hpayload, rfl⟩ :=
    (h.mirrors name document).1 hfile
  obtain ⟨-, payload', hpayload', hread⟩ :=
    hkept.persists hget (h.statuses id s hget)
  rw [hpayload] at hpayload'
  cases hpayload'
  have hid := (hkept.sound id s hget).1
  subst hid
  exact ⟨isMapping_readBack hpayload, s, hread env, hget, hpath⟩

theorem Faithful.written (h : Faithful sha1Hex st) (hkept : Kept st.1)
    (hget : st.1.get? listId = some s) :
    ∃ document, st.2.get? (pathFor sha1Hex listId) = some document := by
  obtain ⟨-, payload, hpayload, -⟩ :=
    hkept.persists hget (h.statuses listId s hget)
  exact ⟨_, (h.mirrors _ _).2
    ⟨listId, s, payload, hget, rfl, hpayload, rfl⟩⟩

theorem Faithful.load (h : Faithful sha1Hex st) (hkept : Kept st.1)
    (env : Env) (listId : String) :
    (fileTaskListStore sha1Hex).load st.2 env listId
      = .ok (st.1.get? listId) := by
  show (match st.2.get? (pathFor sha1Hex listId) with
    | none => _
    | some document => _) = _
  cases hfile : st.2.get? (pathFor sha1Hex listId) with
  | none =>
    cases hget : st.1.get? listId with
    | none => rfl
    | some s =>
      obtain ⟨document, hdoc⟩ := h.written hkept hget
      rw [hfile] at hdoc
      cases hdoc
  | some document =>
    obtain ⟨hmap, s, hread, hget, hpath⟩ := h.decode hkept env hfile
    dsimp only
    rw [if_pos hmap, hread, ok_bind]
    by_cases hid : s.listId = listId
    · subst hid
      rw [if_neg (not_not.2 rfl), hget]
    · rw [if_pos hid]
      cases hother : st.1.get? listId with
      | none => rfl
      | some s₂ =>
        refine absurd (h.distinct _ ?_ _ ?_ hpath) hid
        · exact Dict.mem_keys_iff.2 ⟨s, hget⟩
        · exact Dict.mem_keys_iff.2 ⟨s₂, hother⟩

theorem mapM_eq_filterMap {α β : Type} {f : α → Except Raised β} {l : List α}
    (h : ∀ a ∈ l, ∃ b, f a = .ok b) :
    l.mapM f = .ok (l.filterMap fun a => (f a).toOption) := by
  induction l with
  | nil => rfl
  | cons a l ih =>
    obtain ⟨b, hb⟩ := h a (List.mem_cons_self ..)
    have hcons : (a :: l).filterMap (fun a => (f a).toOption)
        = b :: l.filterMap fun a => (f a).toOption := by
      refine List.filterMap_cons_some ?_
      rw [hb]
      rfl
    rw [List.mapM_cons, hb, ok_bind,
      ih fun x hx => h x (List.mem_cons_of_mem _ hx), ok_bind, hcons]
    rfl

theorem Faithful.listSnapshots (h : Faithful sha1Hex st) (hkept : Kept st.1)
    (env : Env) :
    (fileTaskListStore sha1Hex).listSnapshots st.2 env
      = inMemoryTaskListStore.listSnapshots st.1 env := by
  let names := st.2.keys.insertionSort (· ≤ ·)
  let ids := st.1.keys.insertionSort (· ≤ ·)
  let decoded := fun name => (st.2.get? name).bind fun document =>
    (fromPayload env document).toOption
  have hdocs : ∀ d ∈ names.filterMap st.2.get?, isMapping d = true
      ∧ ∃ s, fromPayload env d = .ok s := by
    intro d hd
    obtain ⟨name, -, hname⟩ := List.mem_filterMap.1 hd
    obtain ⟨hmap, s, hread, -⟩ := h.decode hkept env hname
    exact ⟨hmap, s, hread⟩
  -- a decoded file is the list its name belongs to
  have hdecoded : ∀ name s, decoded name = some s →
      st.1.get? s.listId = some s ∧ pathFor sha1Hex s.listId = name := by
    intro name s hs
    obtain ⟨document, hfile, hread⟩ := Option.bind_eq_some_iff.1 hs
    obtain ⟨-, s', hread', hget, hpath⟩ := h.decode hkept env hfile
    rw [hread'] at hread
    cases hread
    exact ⟨hget, hpath⟩
  have hid : ∀ id s, st.1.get? id = some s → s.listId = id :=
    fun id s hget => (hkept.sound id s hget).1
  have hmem : ∀ s, s ∈ names.filterMap decoded ↔ s ∈ ids.filterMap st.1.get? := by
    intro s
    rw [List.mem_filterMap, List.mem_filterMap]
    refine ⟨?_, ?_⟩
    · intro hs
      obtain ⟨name, -, hname⟩ := hs
      obtain ⟨hget, -⟩ := hdecoded name s hname
      refine ⟨s.listId, ?_, hget⟩
      exact (List.mem_insertionSort _).2 (Dict.mem_keys_iff.2 ⟨s, hget⟩)
    · intro hs
      obtain ⟨id, -, hget⟩ := hs
      obtain ⟨document, hfile⟩ := h.written hkept hget
      obtain ⟨-, s', hread, hget', hpath⟩ := h.decode hkept env hfile
      have hsame : s'.listId = id := by
        apply h.distinct _ _ _ _ hpath
        · exact Dict.mem_keys_iff.2 ⟨s', hget'⟩
        · exact Dict.mem_keys_iff.2 ⟨s, hget⟩
      rw [hsame, hget] at hget'
      cases hget'
      refine ⟨_, ?_, Option.bind_eq_some_iff.2 ⟨document, hfile, ?_⟩⟩
      · exact (List.mem_insertionSort _).2
          (Dict.mem_keys_iff.2 ⟨document, hfile⟩)
      · rw [hread]
        rfl
  have hnodup : (names.filterMap decoded).Nodup := by
    apply List.Nodup.filterMap
    · intro a a' s ha ha'
      exact (hdecoded a s ha).2.symm.trans (hdecoded a' s ha').2
    · exact (List.perm_insertionSort _ _).nodup_iff.2 st.2.nodup_keys
  have hnodup' : (ids.filterMap st.1.get?).Nodup := by
    apply List.Nodup.filterMap
    · intro a a' s ha ha'
      exact (hid a s ha).symm.trans (hid a' s ha')
    · exact (List.perm_insertionSort _ _).nodup_iff.2 st.1.nodup_keys
  have hsorted : (ids.filterMap st.1.get?).Pairwise
      fun a b => a.listId ≤ b.listId := by
    refine List.Pairwise.filterMap _ ?_ (List.pairwise_insertionSort _ _)
    intro a a' hle s hs s' hs'
    rw [hid a s hs, hid a' s' hs']
    exact hle
  have hsort : (names.filterMap decoded).insertionSort
      (fun a b => a.listId ≤ b.listId) = ids.filterMap st.1.get? := by
    have hperm := (List.perm_ext_iff_of_nodup hnodup hnodup').2 hmem
    refine ((List.perm_insertionSort _ _).trans hperm).eq_of_pairwise ?_
      ?_ hsorted
    · intro a b ha hb hab hba
      have ha' := (hmem a).1 ((List.mem_insertionSort _).1 ha)
      obtain ⟨i, -, hi⟩ := List.mem_filterMap.1 ha'
      obtain ⟨j, -, hj⟩ := List.mem_filterMap.1 hb
      have hij : i = j := by
        rw [← hid i a hi, ← hid j b hj]
        exact le_antisymm hab hba
      rw [hij, hj] at hi
      cases hi
      rfl
    · have htotal : Std.Total fun a b : TaskListSnapshot =>
          a.listId ≤ b.listId := ⟨fun a b => le_total a.listId b.listId⟩
      have htrans : IsTrans TaskListSnapshot fun a b =>
          a.listId ≤ b.listId := ⟨fun _ _ _ => le_trans⟩
      exact List.pairwise_insertionSort _ _
  show (((names.filterMap st.2.get?).filter isMapping).mapM _ >>= _) = _
  rw [List.filter_eq_self.2 fun d hd => (hdocs d hd).1,
    mapM_eq_filterMap fun d hd => (hdocs d hd).2, ok_bind,
    List.filterMap_filterMap]
  exact congrArg Except.ok hsort

theorem Faithful.call (h : Faithful sha1Hex st) (hkept : Kept st.1)
    (env : Env) (listId : String) (op : Op) :
    TaskLists.call (fileTaskListStore sha1Hex) st.2 env (.onList listId op)
      = (apply (loadInMemory st.1 env listId) env op >>= fun outcome =>
        saveIfAny (fileTaskListStore sha1Hex) st.2 outcome.2 >>= fun files =>
          .ok (outcome.1, files)) := by
  show (getSnapshot (fileTaskListStore sha1Hex) st.2 env listId >>= _) = _
  unfold getSnapshot
  rw [h.load hkept]
  rfl

theorem Faithful.saved_statuses (h : Faithful sha1Hex st) (hkept : Kept st.1)
    {env : Env} {op : Op} {r : Result}
    (henabled : Enabled inMemoryTaskListStore st.1 env (.onList listId op))
    (hno : ¬ StoresNoStatus st.1 (env, .onList listId op))
    (happly : apply (loadInMemory st.1 env listId) env op
      = .ok (r, some s')) : HasStatuses s' := by
  have hloaded : HasStatuses (loadInMemory st.1 env listId) := by
    cases hget : st.1.get? listId with
    | some s =>
      rw [loadInMemory_stored hget]
      exact h.statuses listId s hget
    | none =>
      rw [loadInMemory_absent hget]
      intro t ht
      cases ht
  exact (hkept.saves henabled happly).hasStatuses hloaded hno

theorem Faithful.save (h : Faithful sha1Hex st) {payload : PyVal}
    (hstatus : HasStatuses s') (hpayload : s'.serialize = .ok payload)
    (hdistinct : DistinctFiles sha1Hex (st.1.insert s'.listId s')) :
    Faithful sha1Hex (st.1.insert s'.listId s',
      st.2.insert (pathFor sha1Hex s'.listId) (jsonReadBack payload)) := by
  have hnew : s'.listId ∈ (st.1.insert s'.listId s').keys :=
    Dict.mem_keys_insert.2 (Or.inl rfl)
  refine ⟨?_, hdistinct, ?_⟩
  · intro id s hget
    have hget' : (st.1.insert s'.listId s').get? id = some s := hget
    rw [Dict.get?_insert] at hget'
    split at hget'
    · cases hget'
      exact hstatus
    · exact h.statuses id s hget'
  · intro name document
    show (st.2.insert _ _).get? name = some document ↔
      ∃ id s p, (st.1.insert _ _).get? id = some s ∧ _
    rw [Dict.get?_insert]
    by_cases hname : name = pathFor sha1Hex s'.listId
    · -- the file just written
      subst hname
      rw [if_pos rfl]
      refine ⟨?_, ?_⟩
      · intro hdoc
        exact ⟨s'.listId, s', payload, Dict.get?_insert_self .., rfl,
          hpayload, Option.some.inj hdoc⟩
      · intro hstored
        obtain ⟨id, s, p, hget, hpath, hp, rfl⟩ := hstored
        have hid : id = s'.listId := by
          apply hdistinct id _ s'.listId hnew hpath
          exact Dict.mem_keys_iff.2 ⟨s, hget⟩
        subst hid
        rw [Dict.get?_insert_self] at hget
        cases hget
        rw [hpayload] at hp
        cases hp
        rfl
    · -- another file
      rw [if_neg hname, h.mirrors name document]
      have hother : ∀ id, pathFor sha1Hex id = name →
          (st.1.insert s'.listId s').get? id = st.1.get? id := by
        intro id hpath
        apply Dict.get?_insert_of_ne
        intro hid
        rw [hid] at hpath
        exact hname hpath.symm
      refine ⟨?_, ?_⟩
      · intro hstored
        obtain ⟨id, s, p, hget, hpath, hp, hdoc⟩ := hstored
        exact ⟨id, s, p, (hother id hpath).trans hget, hpath, hp, hdoc⟩
      · intro hstored
        obtain ⟨id, s, p, hget, hpath, hp, hdoc⟩ := hstored
        exact ⟨id, s, p, (hother id hpath).symm.trans hget, hpath, hp, hdoc⟩

inductive SameCall (sha1Hex : String → String) (st : Stores) :
    Except Raised (Result × Dict String TaskListSnapshot) →
    Except Raised (Result × Dict String PyVal) → Prop
  | raised (e : Raised) : SameCall sha1Hex st (.error e) (.error e)
  | read (r : Result) : SameCall sha1Hex st (.ok (r, st.1)) (.ok (r, st.2))
  | saved (r : Result) {s' : TaskListSnapshot} {payload : PyVal}
      (hstatus : HasStatuses s') (hpayload : s'.serialize = .ok payload) :
      SameCall sha1Hex st (.ok (r, st.1.insert s'.listId s'))
        (.ok (r, st.2.insert (pathFor sha1Hex s'.listId)
          (jsonReadBack payload)))

/-- While nothing is lost, a call that sets no status away is the same on
both stores. -/
theorem Faithful.sameCall (h : Faithful sha1Hex st) (hkept : Kept st.1)
    {env : Env} {request : Request}
    (henabled : Enabled inMemoryTaskListStore st.1 env request)
    (hno : ¬ StoresNoStatus st.1 (env, request)) :
    SameCall sha1Hex st
      (TaskLists.call inMemoryTaskListStore st.1 env request)
      (TaskLists.call (fileTaskListStore sha1Hex) st.2 env request) := by
  cases request with
  | listSnapshots =>
    have hlist := h.listSnapshots hkept env
    show SameCall sha1Hex st _
      ((fileTaskListStore sha1Hex).listSnapshots st.2 env >>= _)
    rw [hlist]
    exact .read _
  | onList listId op =>
    rw [h.call hkept, call_inMemory]
    cases happly : apply (loadInMemory st.1 env listId) env op with
    | error e => exact .raised e
    | ok outcome =>
      obtain ⟨r, next⟩ := outcome
      cases next with
      | none => exact .read r
      | some s' =>
        have hstatus := h.saved_statuses hkept henabled hno happly
        obtain ⟨payload, hpayload⟩ := serialize_iff.2 hstatus
        show SameCall sha1Hex st (.ok (r, st.1.insert s'.listId s'))
          ((s'.serialize >>= _) >>= _)
        rw [hpayload]
        exact .saved r hstatus hpayload

theorem SameCall.result
    {x : Except Raised (Result × Dict String TaskListSnapshot)}
    {y : Except Raised (Result × Dict String PyVal)}
    (h : SameCall sha1Hex st x y) : x.map Prod.fst = y.map Prod.fst := by
  cases h <;> rfl

/-- And leaves the stores the same, as long as the stored lists have files
of their own. -/
theorem SameCall.faithful
    {x : Except Raised (Result × Dict String TaskListSnapshot)}
    {y : Except Raised (Result × Dict String PyVal)}
    (h : SameCall sha1Hex st x y) (hst : Faithful sha1Hex st)
    (hdistinct : DistinctFiles sha1Hex (leaves st.1 x)) :
    Faithful sha1Hex (leaves st.1 x, leaves st.2 y) := by
  cases h with
  | saved r hstatus hpayload => exact hst.save hstatus hpayload hdistinct
  | _ => exact hst

theorem lost_of_storesNoStatus {st' : Stores} (hkept : Kept st.1)
    (hstep : (paired sha1Hex).step st c = some st')
    (hno : StoresNoStatus st.1 c) :
    ∃ listId s, st'.1.get? listId = some s ∧ ¬ Persists s := by
  obtain ⟨-, -, rfl⟩ := paired_step hstep
  obtain ⟨env, request⟩ := c
  cases request with
  | listSnapshots => cases hno
  | onList listId op =>
    have hlinked := (hkept.sound.load env listId).2.toLinked
    obtain ⟨r, s', happly, hlost⟩ := apply_setsNoStatus hlinked env hno
    refine ⟨s'.listId, s', ?_, fun h => hlost h.1⟩
    rw [stateAfter_inMemory, happly]
    exact Dict.get?_insert_self ..

/-- Where the file store loads what is in memory, the stored lists have
files of their own: one file decodes to one list. -/
theorem distinctFiles_of_load (env : Env)
    (hload : ∀ listId, (fileTaskListStore sha1Hex).load st.2 env listId
      = inMemoryTaskListStore.load st.1 env listId) :
    DistinctFiles sha1Hex st.1 := by
  have hread : ∀ id ∈ st.1.keys, ∃ document s,
      st.2.get? (pathFor sha1Hex id) = some document
        ∧ fromPayload env document = .ok s ∧ s.listId = id := by
    intro id hid
    obtain ⟨s, hget⟩ := Dict.mem_keys_iff.1 hid
    have hsome : (fileTaskListStore sha1Hex).load st.2 env id
        = .ok (some s) := by
      rw [hload id]
      exact congrArg Except.ok hget
    unfold fileTaskListStore at hsome
    dsimp only at hsome
    split at hsome
    · cases hsome
    · next document hfile =>
      split at hsome
      · obtain ⟨s', hs', hsome⟩ := bind_eq_ok.1 hsome
        have hsome' := Except.ok.inj hsome
        split at hsome'
        · cases hsome'
        · next hid' => exact ⟨document, s', hfile, hs', not_not.1 hid'⟩
      · cases hsome
  intro a ha b hb hpath
  obtain ⟨d, s, hd, hs, rfl⟩ := hread a ha
  obtain ⟨d', s', hd', hs', rfl⟩ := hread b hb
  rw [hpath, hd'] at hd
  cases hd
  rw [hs'] at hs
  cases hs
  rfl

variable (sha1Hex)

theorem kept_noLists : Kept noLists.1 :=
  ⟨(fun id s hget => by cases hget), (fun id s hget => by cases hget)⟩

theorem faithful_noLists : Faithful sha1Hex noLists where
  statuses id s hget := by cases hget
  distinct a ha := by cases ha
  mirrors name document := by
    refine ⟨?_, ?_⟩
    · intro h
      cases h
    · intro h
      obtain ⟨id, s, payload, hget, -⟩ := h
      cases hget

/-- Stored lists survive, and the two services agree, exactly in the runs
in which no accepted update sets a status to `None` and no two stored
lists share a file. -/
theorem stored_lists_persist (as : List (Env × Request)) :
    ((∀ st, (paired sha1Hex).Visits noLists as st →
        (∀ listId s, st.1.get? listId = some s → Persists s)
        ∧ ∀ env listId, (fileTaskListStore sha1Hex).load st.2 env listId
          = inMemoryTaskListStore.load st.1 env listId)
      ∧ ∀ st c st', (paired sha1Hex).Takes noLists as st c st' →
        resultOf (fileTaskListStore sha1Hex) st.2 c.1 c.2
          = resultOf inMemoryTaskListStore st.1 c.1 c.2)
    ↔ (∀ st c st', (paired sha1Hex).Takes noLists as st c st' →
        ¬ StoresNoStatus st.1 c)
      ∧ ∀ st, (paired sha1Hex).Visits noLists as st →
        DistinctFiles sha1Hex st.1 := by
  have hstepKept : ∀ st c st', Kept st.1 →
      (paired sha1Hex).step st c = some st' → Kept st'.1 :=
    fun st c st' h hstep => h.step hstep
  have hkept : ∀ st, (paired sha1Hex).Visits noLists as st → Kept st.1 :=
    fun st hv => System.visits_invariant (I := fun st => Kept st.1)
      hstepKept kept_noLists hv
  refine ⟨?_, ?_⟩
  · intro h
    obtain ⟨hpersist, -⟩ := h
    refine ⟨?_, ?_⟩
    · intro st c st' htake hno
      obtain ⟨hv, hv'⟩ := htake.visits
      obtain ⟨p, q, -, -, hstep⟩ := htake
      obtain ⟨listId, s, hget, hlost⟩ :=
        lost_of_storesNoStatus (hkept st hv) hstep hno
      exact hlost ((hpersist st' hv').1 listId s hget)
    · intro st hv
      exact distinctFiles_of_load fixedEnv
        fun listId => (hpersist st hv).2 fixedEnv listId
  · intro h
    obtain ⟨hno, hdistinct⟩ := h
    have hgood : ∀ st, (paired sha1Hex).Visits noLists as st →
        Faithful sha1Hex st := by
      intro st hv
      refine System.visits_of_takes (I := fun st => Kept st.1)
        (G := fun st c => ¬ StoresNoStatus st.1 c
          ∧ ∀ st', (paired sha1Hex).step st c = some st' →
            DistinctFiles sha1Hex st'.1)
        hstepKept ?_ kept_noLists (faithful_noLists sha1Hex) ?_ hv
      · intro st c st' hk hf hstep hg
        have hd := hg.2 st' hstep
        obtain ⟨-, henabled, rfl⟩ := paired_step hstep
        exact (hf.sameCall hk henabled hg.1).faithful hf hd
      · intro st c st' htake
        refine ⟨hno st c st' htake, ?_⟩
        intro st'' hstep
        obtain ⟨-, hv'⟩ := htake.visits
        obtain ⟨p, q, -, -, hstep'⟩ := htake
        rw [hstep'] at hstep
        cases hstep
        exact hdistinct st' hv'
    refine ⟨?_, ?_⟩
    · intro st hv
      have hf := hgood st hv
      refine ⟨?_, ?_⟩
      · intro listId s hget
        exact (hkept st hv).persists hget (hf.statuses listId s hget)
      · intro env listId
        exact hf.load (hkept st hv) env listId
    · intro st c st' htake
      obtain ⟨hv, -⟩ := htake.visits
      have hnot := hno st c st' htake
      obtain ⟨p, q, -, -, hstep⟩ := htake
      obtain ⟨-, henabled, -⟩ := paired_step hstep
      exact ((hgood st hv).sameCall (hkept st hv) henabled
        hnot).result.symm

end Paired

-- ======= a lost status

/-- One task is created, and its status set to `None`. -/
def nullStatusRun : List (Env × Request) :=
  fixedRun.take 1 ++ [(fixedEnv, .onList "inbox"
    (.update fixedEnv.hex.text [(.str "status", .none)] false))]

/-- The SHA-1 of the id of the one list. -/
def inboxSha1 : String → String :=
  fun _ => "08a5564a79b3d56562ff091aa4077e9abd0cdc3e"

/-- The in-memory service accepts the update and stores a task without a
status; the file service raises. -/
theorem null_status_not_persisted : ∃ st s,
    (paired inboxSha1).run noLists nullStatusRun = some st
      ∧ st.1.get? "inbox" = some s ∧ ¬ Persists s
      ∧ s.serialize = .error
        (.attributeError "'NoneType' object has no attribute 'value'")
      ∧ (fileTaskListStore inboxSha1).load st.2 fixedEnv "inbox"
        ≠ inMemoryTaskListStore.load st.1 fixedEnv "inbox" := by
  have hrun : ∃ st s, (paired inboxSha1).run noLists nullStatusRun = some st
      ∧ st.1.get? "inbox" = some s
      ∧ s.serialize = .error
        (.attributeError "'NoneType' object has no attribute 'value'")
      ∧ ((fileTaskListStore inboxSha1).load st.2 fixedEnv "inbox").map
          (fun o => o.map fun l => l.tasks.map TaskListEntry.status)
        = .ok (some [some .pending])
      ∧ (inMemoryTaskListStore.load st.1 fixedEnv "inbox").map
          (fun o => o.map fun l => l.tasks.map TaskListEntry.status)
        = .ok (some [none]) :=
    ⟨_, _, rfl, rfl, rfl, rfl, rfl⟩
  obtain ⟨st, s, hst, hget, hser, hfile, hmem⟩ := hrun
  refine ⟨st, s, hst, hget, ?_, hser, ?_⟩
  · intro h
    obtain ⟨-, payload, hpayload, -⟩ := h
    rw [hser] at hpayload
    cases hpayload
  · intro hsame
    rw [hsame, hmem] at hfile
    cases hfile

end WeaveRuntime.TaskLists
