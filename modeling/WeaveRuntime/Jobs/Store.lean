/-
Where job records are kept.

`JobStore` is the protocol. A store keeps one record under one name:
`inMemoryJobStore` under the job id itself, `fileJobStore` in a file named
by the id's safe characters and twelve digits of its SHA-1, so that two
ids may share a file. `Lawful` is what a store promises in terms of the
names, and the only thing the service's properties use: an update is read
back with its status, and a write reaches no other name.
-/
import WeaveRuntime.Jobs.Model
import WeaveRuntime.Lib.Dict
import WeaveRuntime.TaskLists.Persistence

namespace WeaveRuntime.Jobs

open Lib
open Python
open TaskLists (optTime coerceDatetime safeFilenameChars
  stripDots)

-- ======== the protocol

/-- `JobStore`, as the service uses it: `create` has no caller. -/
structure JobStore (σ : Type) where
  upsert : σ → JobRecord → σ
  get : σ → String → Option JobRecord
  list : σ → List JobRecord

def sortRecords (records : List JobRecord) : List JobRecord :=
  records.insertionSort fun a b =>
    a.createdAt.stamp < b.createdAt.stamp
      ∨ (a.createdAt.stamp = b.createdAt.stamp ∧ a.jobId ≤ b.jobId)

structure JobStore.Lawful {σ : Type} (S : JobStore σ)
    (name : String → String) : Prop where
  jobId_of_get : ∀ {s jobId record},
    S.get s jobId = some record → record.jobId = jobId
  eq_of_name : ∀ {s a b ra rb}, S.get s a = some ra → S.get s b = some rb →
    name a = name b → a = b
  get_upsert : ∀ {s record current}, S.get s record.jobId = some current →
    ∃ r, S.get (S.upsert s record) record.jobId = some r
      ∧ r.status = record.status
  status_of_get_upsert : ∀ {s record r},
    S.get (S.upsert s record) record.jobId = some r →
      r.status = record.status
  get_upsert_other : ∀ s record jobId, name jobId ≠ name record.jobId →
    S.get (S.upsert s record) jobId = S.get s jobId
  get_upsert_taken : ∀ s record jobId, name jobId = name record.jobId →
    jobId ≠ record.jobId → S.get (S.upsert s record) jobId = none

structure LawfulJobStore (σ : Type) where
  store : JobStore σ
  name : String → String
  lawful : store.Lawful name

-- =========== in memory

structure InMemoryJobStore where
  records : Dict String JobRecord
  keyed : ∀ jobId record, records.get? jobId = some record →
    record.jobId = jobId

def InMemoryJobStore.empty : InMemoryJobStore :=
  ⟨Dict.empty, fun jobId record h => by cases h⟩

def InMemoryJobStore.upsert (s : InMemoryJobStore) (record : JobRecord) :
    InMemoryJobStore where
  records := s.records.insert record.jobId record
  keyed jobId r h := by
    rw [Dict.get?_insert] at h
    split at h
    · next hid =>
      cases h
      exact hid.symm
    · exact s.keyed jobId r h

def inMemoryJobStore : JobStore InMemoryJobStore where
  upsert := InMemoryJobStore.upsert
  get s jobId := s.records.get? jobId
  list s := sortRecords s.records.values

theorem lawful_inMemoryJobStore : inMemoryJobStore.Lawful id where
  jobId_of_get {s jobId record} h := s.keyed jobId record h
  eq_of_name _ _ h := h
  get_upsert {s record current} _ :=
    ⟨record, Dict.get?_insert_self .., rfl⟩
  status_of_get_upsert {s record r} h := by
    have hself : (s.records.insert record.jobId record).get? record.jobId
        = some r := h
    rw [Dict.get?_insert_self] at hself
    cases hself
    rfl
  get_upsert_other s record jobId h :=
    Dict.get?_insert_of_ne s.records record h
  get_upsert_taken s record jobId h hne := absurd h hne

def lawfulInMemory : LawfulJobStore InMemoryJobStore :=
  ⟨inMemoryJobStore, id, lawful_inMemoryJobStore⟩

-- =========== documents

def coerceBool (value : PyVal) (default_ : Bool) : Bool :=
  match value with
  | .bool b => b
  | .none => default_
  | .str text =>
    let lowered := (pyStrip text).toLower
    if lowered ∈ ["1", "true", "yes", "on"] then true
    else if lowered ∈ ["0", "false", "no", "off"] then false
    else (PyVal.str text).truthy
  | v => v.truthy

def JobControlCapabilities.serialize (c : JobControlCapabilities) : PyVal :=
  .dict [(.str "stoppable", .bool c.stoppable)]

def capabilitiesFromPayload : PyVal → Option JobControlCapabilities
  | .dict fields => some ⟨coerceBool (getField fields "stoppable") false⟩
  | _ => none

def JobSidecarRef.serialize (s : JobSidecarRef) : PyVal :=
  .dict [(.str "kind", .str s.kind), (.str "ref", .str s.ref),
    (.str "metadata", jsonSafe (.dict s.metadata))]

def recordFields (r : JobRecord) : Fields :=
  [(.str "job_id", .str r.jobId),
    (.str "executor_kind", .str r.executorKind),
    (.str "summary", .str r.summary),
    (.str "description", optText r.description),
    (.str "status", .str r.status.value),
    (.str "capabilities",
      (r.capabilities.map JobControlCapabilities.serialize).getD .none),
    (.str "stop_requested", .bool r.stopRequested),
    (.str "created_at", .str r.createdAt.isoformat),
    (.str "updated_at", .str r.updatedAt.isoformat),
    (.str "started_at", optTime r.startedAt),
    (.str "ended_at", optTime r.endedAt),
    (.str "session_id", optText r.sessionId),
    (.str "team_id", optText r.teamId),
    (.str "submitted_by", optText r.submittedBy),
    (.str "projection_kind", optText r.projectionKind),
    (.str "parent_run_id", optText r.parentRunId),
    (.str "parent_turn_id", optText r.parentTurnId),
    (.str "result", (r.result.map fun m => jsonSafe (.dict m)).getD .none),
    (.str "error", optText r.error),
    (.str "metadata", jsonSafe (.dict r.metadata)),
    (.str "sidecar_refs", .list (r.sidecarRefs.map (·.serialize)))]

theorem nodup_recordFields (r : JobRecord) :
    ((recordFields r).map Prod.fst).Nodup := by
  have hkeys : (recordFields r).map Prod.fst
      = ["job_id", "executor_kind", "summary", "description", "status",
        "capabilities", "stop_requested", "created_at", "updated_at",
        "started_at", "ended_at", "session_id", "team_id", "submitted_by",
        "projection_kind", "parent_run_id", "parent_turn_id", "result",
        "error", "metadata", "sidecar_refs"].map PyKey.str := rfl
  rw [hkeys]
  decide

def JobRecord.serialize (r : JobRecord) : PyVal := .dict (recordFields r)

def documentId (payload : Fields) : Option String :=
  match getField payload "job_id" with
  | .str text => if text = "" then none else some text
  | _ => none

/-- `JobRecord.from_payload`, of a document that has an id, a status and
its two times, as every document the store wrote for a job with an id
does: the defaults of the source for these are not needed. -/
def recordFromPayload (payload : Fields) : Option JobRecord := do
  let jobId ← documentId payload
  let status ← (coerceOptionalString (getField payload "status")).bind
    JobStatus.ofValue
  let createdAt ← coerceDatetime (getField payload "created_at")
  let updatedAt ← coerceDatetime (getField payload "updated_at")
  let text := fun key => coerceOptionalString (getField payload key)
  some
    { jobId
      executorKind :=
        pyStr (pyOr (getField payload "executor_kind") (.str "legacy"))
      summary := pyStr (pyOr (getField payload "summary") (.str ""))
      description := text "description"
      status
      capabilities :=
        capabilitiesFromPayload (getField payload "capabilities")
      stopRequested := coerceBool (getField payload "stop_requested") false
      createdAt
      updatedAt
      startedAt := coerceDatetime (getField payload "started_at")
      endedAt := coerceDatetime (getField payload "ended_at")
      sessionId := text "session_id"
      teamId := text "team_id"
      submittedBy := text "submitted_by"
      projectionKind := text "projection_kind"
      parentRunId := text "parent_run_id"
      parentTurnId := text "parent_turn_id"
      result := coerceOptionalMapping (getField payload "result")
      error := text "error"
      metadata :=
        (coerceOptionalMapping (getField payload "metadata")).getD []
      sidecarRefs :=
        (mappingItems (getField payload "sidecar_refs")).map
          sidecarRefFromPayload }

def readDocument : PyVal → Option JobRecord
  | .dict fields => recordFromPayload fields
  | _ => none

-- ============= on disk

/-- `_path_for`, the name under the store's root; `sha1Hex` is the
hexadecimal SHA-1 of an id. -/
def pathFor (sha1Hex : String → String) (jobId : String) : String :=
  let kept := stripDots (safeFilenameChars false jobId.toList)
  (if kept = [] then "job" else String.ofList kept) ++ "--"
    ++ String.ofList ((sha1Hex jobId).toList.take 12) ++ ".json"

def fileJobStore (sha1Hex : String → String) :
    JobStore (Dict String PyVal) where
  upsert files record :=
    files.insert (pathFor sha1Hex record.jobId)
      (jsonReadBack record.serialize)
  get files jobId :=
    ((files.get? (pathFor sha1Hex jobId)).bind readDocument).filter
      fun record => record.jobId = jobId
  list files :=
    sortRecords (((files.keys.insertionSort (· ≤ ·)).filterMap
      files.get?).filterMap readDocument)

theorem getField_document (r : JobRecord) (key : String) :
    getField (SortedMap.ofList (canonFields (recordFields r))) key
      = ((lookupKey (recordFields r) key).map PyVal.canon).getD .none := by
  unfold getField
  rw [lookupKey_canon (nodup_recordFields r)]

theorem documentId_document (r : JobRecord) :
    documentId (SortedMap.ofList (canonFields (recordFields r)))
      = if r.jobId = "" then none else some r.jobId := by
  have hget : getField (SortedMap.ofList (canonFields (recordFields r)))
      "job_id" = .str r.jobId := getField_document r "job_id"
  unfold documentId
  rw [hget]

theorem readDocument_serialize {r : JobRecord} (h : r.jobId ≠ "") :
    ∃ r', readDocument (jsonReadBack r.serialize) = some r'
      ∧ r'.jobId = r.jobId ∧ r'.lifecycle = r.lifecycle := by
  have hstatus : (coerceOptionalString (.str r.status.value)).bind
      JobStatus.ofValue = some r.status := by
    cases r.status <;> rfl
  have hcreated : coerceDatetime (.str r.createdAt.isoformat)
      = some r.createdAt := fromisoformat_isoformat r.createdAt
  have hupdated : coerceDatetime (.str r.updatedAt.isoformat)
      = some r.updatedAt := fromisoformat_isoformat r.updatedAt
  have hgetStatus : getField
      (SortedMap.ofList (canonFields (recordFields r))) "status"
      = .str r.status.value := getField_document r "status"
  have hgetCreated : getField
      (SortedMap.ofList (canonFields (recordFields r))) "created_at"
      = .str r.createdAt.isoformat := getField_document r "created_at"
  have hgetUpdated : getField
      (SortedMap.ofList (canonFields (recordFields r))) "updated_at"
      = .str r.updatedAt.isoformat := getField_document r "updated_at"
  have hstarted : coerceDatetime (getField
      (SortedMap.ofList (canonFields (recordFields r))) "started_at")
      = r.startedAt := by
    have hget : getField (SortedMap.ofList (canonFields (recordFields r)))
        "started_at" = (optTime r.startedAt).canon :=
      getField_document r "started_at"
    rw [hget, TaskLists.canon_optTime, TaskLists.coerceDatetime_optTime]
  have hended : coerceDatetime (getField
      (SortedMap.ofList (canonFields (recordFields r))) "ended_at")
      = r.endedAt := by
    have hget : getField (SortedMap.ofList (canonFields (recordFields r)))
        "ended_at" = (optTime r.endedAt).canon :=
      getField_document r "ended_at"
    rw [hget, TaskLists.canon_optTime, TaskLists.coerceDatetime_optTime]
  show ∃ r', recordFromPayload
    (SortedMap.ofList (canonFields (recordFields r))) = some r' ∧ _
  unfold recordFromPayload
  rw [documentId_document, if_neg h, hgetStatus, hgetCreated, hgetUpdated,
    hstatus, hcreated, hupdated, hstarted, hended]
  refine ⟨_, rfl, rfl, ?_⟩
  simp only [JobRecord.lifecycle]

theorem readDocument_of_empty {r : JobRecord} (h : r.jobId = "") :
    readDocument (jsonReadBack r.serialize) = none := by
  show recordFromPayload
    (SortedMap.ofList (canonFields (recordFields r))) = none
  unfold recordFromPayload
  rw [documentId_document, if_pos h]
  rfl

theorem jobId_ne_of_readDocument {document : PyVal} {r : JobRecord}
    (h : readDocument document = some r) : r.jobId ≠ "" := by
  cases document with
  | dict fields =>
    have hfields : recordFromPayload fields = some r := h
    unfold recordFromPayload at hfields
    obtain ⟨jobId, hid, hrest⟩ := Option.bind_eq_some_iff.1 hfields
    have hne : jobId ≠ "" := by
      unfold documentId at hid
      split at hid
      · split at hid
        · cases hid
        · next hne =>
          cases hid
          exact hne
      · cases hid
    obtain ⟨_, -, hrest⟩ := Option.bind_eq_some_iff.1 hrest
    obtain ⟨_, -, hrest⟩ := Option.bind_eq_some_iff.1 hrest
    obtain ⟨_, -, hrest⟩ := Option.bind_eq_some_iff.1 hrest
    cases hrest
    exact hne
  | _ => cases h

section FileStore

variable {sha1Hex : String → String}

variable {files : Dict String PyVal} {jobId : String} {record : JobRecord}

theorem get_fileJobStore :
    (fileJobStore sha1Hex).get files jobId = some record
      ↔ (files.get? (pathFor sha1Hex jobId)).bind readDocument = some record
        ∧ record.jobId = jobId := by
  show Option.filter _ _ = some record ↔ _
  rw [Option.filter_eq_some_iff, decide_eq_true_eq]

theorem bind_readDocument_upsert (files : Dict String PyVal)
    (record : JobRecord)
    (h : pathFor sha1Hex jobId = pathFor sha1Hex record.jobId) :
    (((fileJobStore sha1Hex).upsert files record).get?
        (pathFor sha1Hex jobId)).bind readDocument
      = readDocument (jsonReadBack record.serialize) := by
  unfold fileJobStore
  dsimp only
  rw [h, Dict.get?_insert_self, Option.bind_some]

theorem get_upsert_fileJobStore {r : JobRecord}
    (hpath : pathFor sha1Hex jobId = pathFor sha1Hex record.jobId)
    (h : (fileJobStore sha1Hex).get ((fileJobStore sha1Hex).upsert files
      record) jobId = some r) :
    jobId = record.jobId ∧ r.lifecycle = record.lifecycle := by
  obtain ⟨hread, hid⟩ := get_fileJobStore.1 h
  rw [bind_readDocument_upsert files record hpath] at hread
  by_cases hempty : record.jobId = ""
  · rw [readDocument_of_empty hempty] at hread
    cases hread
  · obtain ⟨r', hr', hid', hlife⟩ := readDocument_serialize hempty
    rw [hr'] at hread
    cases hread
    exact ⟨hid.symm.trans hid', hlife⟩

theorem get_update_fileJobStore {current : JobRecord}
    (h : (fileJobStore sha1Hex).get files record.jobId = some current) :
    ∃ r, (fileJobStore sha1Hex).get ((fileJobStore sha1Hex).upsert files
      record) record.jobId = some r ∧ r.status = record.status := by
  obtain ⟨hread, hid⟩ := get_fileJobStore.1 h
  obtain ⟨document, -, hdoc⟩ := Option.bind_eq_some_iff.1 hread
  have hne : record.jobId ≠ "" := by
    rw [← hid]
    exact jobId_ne_of_readDocument hdoc
  obtain ⟨r, hr, hrid, hlife⟩ := readDocument_serialize hne
  refine ⟨r, get_fileJobStore.2 ⟨?_, hrid⟩,
    congrArg Lifecycle.status hlife⟩
  rw [bind_readDocument_upsert files record rfl, hr]

theorem get_upsert_other_fileJobStore (files : Dict String PyVal)
    (record : JobRecord)
    (h : pathFor sha1Hex jobId ≠ pathFor sha1Hex record.jobId) :
    (fileJobStore sha1Hex).get ((fileJobStore sha1Hex).upsert files record)
        jobId = (fileJobStore sha1Hex).get files jobId := by
  unfold fileJobStore
  dsimp only
  rw [Dict.get?_insert_of_ne _ _ h]

variable (sha1Hex)

theorem lawful_fileJobStore :
    (fileJobStore sha1Hex).Lawful (pathFor sha1Hex) := by
  refine ⟨?_, ?_, ?_, ?_, ?_, ?_⟩
  · intro files jobId record h
    exact (get_fileJobStore.1 h).2
  · intro files a b ra rb ha hb hpath
    obtain ⟨hread, rfl⟩ := get_fileJobStore.1 ha
    obtain ⟨hread', rfl⟩ := get_fileJobStore.1 hb
    rw [hpath, hread'] at hread
    cases hread
    rfl
  · intro files record current h
    exact get_update_fileJobStore h
  · intro files record r h
    exact congrArg Lifecycle.status (get_upsert_fileJobStore rfl h).2
  · intro files record jobId h
    exact get_upsert_other_fileJobStore files record h
  · intro files record jobId h hne
    refine Option.eq_none_iff_forall_ne_some.2 fun r hr => ?_
    exact hne (get_upsert_fileJobStore h hr).1

def lawfulFiles : LawfulJobStore (Dict String PyVal) :=
  ⟨fileJobStore sha1Hex, pathFor sha1Hex, lawful_fileJobStore sha1Hex⟩

end FileStore

end WeaveRuntime.Jobs
