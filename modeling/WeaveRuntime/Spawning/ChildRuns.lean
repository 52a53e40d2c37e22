/-
The stores of the child runs.

The store in memory keeps a record as it is. The one on files writes it as
JSON, what JSON does not know as text, and has the runs of a session in an
index file. The two answer every sequence of calls alike
(`child_run_stores_agree`) where the records hold stripped texts and JSON
values: such a record is read as it was written (`runRecord_roundTrip`).
-/
import WeaveRuntime.Lib.Dict
import WeaveRuntime.Spawning.Model
import WeaveRuntime.Transcripts.Codec

namespace WeaveRuntime.Spawning

open Lib Python Messages Transcripts
open Jobs (Fields getField updateFields)

-- ==== model: the records

inductive AgentRunStatus where
  | running | completed | maxTurns | stopped | failed | denied
  deriving DecidableEq

def AgentRunStatus.value : AgentRunStatus → String
  | .running => "running"
  | .completed => "completed"
  | .maxTurns => "max_turns"
  | .stopped => "stopped"
  | .failed => "failed"
  | .denied => "denied"

def AgentRunStatus.ofValue (text : String) :
    Except CodecError AgentRunStatus :=
  orRaise ([AgentRunStatus.running, .completed, .maxTurns, .stopped, .failed,
    .denied].find? fun s => s.value = text) .valueError

def SpawnMode.ofValue (text : String) : Except CodecError SpawnMode :=
  orRaise ([SpawnMode.sync, .background, .fork, .teammate].find?
    fun m => m.value = text) .valueError

structure AgentRunRecord where
  runId : String
  parentRunId : Option String
  sessionId : String
  parentTurnId : Option String
  turnId : Option String
  agentName : String
  spawnMode : SpawnMode
  status : AgentRunStatus
  querySource : Option String := none
  delegationDepth : Int := 0
  requestedModelRoute : Option String := none
  requestedModel : Option String := none
  requestedEffort : Payload := .scalar .none
  resolvedModelRoute : Option String := none
  providerName : Option String := none
  resolvedCapabilities : Option Fields := none
  invocationMode : Option String := none
  requestMetadata : Fields := []
  terminalMetadata : Fields := []
  messages : List RuntimeMessage := []

/-- A mapping or `None`. -/
def optionalFields : Option Fields → PyVal
  | some fields => .dict fields
  | none => .none

def serializeRunRecord (r : AgentRunRecord) : Payload :=
  record
    [("run_id", strPayload r.runId),
      ("parent_run_id", optionalPayload r.parentRunId),
      ("session_id", strPayload r.sessionId),
      ("parent_turn_id", optionalPayload r.parentTurnId),
      ("turn_id", optionalPayload r.turnId),
      ("agent_name", strPayload r.agentName),
      ("spawn_mode", strPayload r.spawnMode.value),
      ("status", strPayload r.status.value),
      ("query_source", optionalPayload r.querySource),
      ("delegation_depth", .scalar (.int r.delegationDepth)),
      ("requested_model_route", optionalPayload r.requestedModelRoute),
      ("requested_model", optionalPayload r.requestedModel),
      ("requested_effort", r.requestedEffort),
      ("resolved_model_route", optionalPayload r.resolvedModelRoute),
      ("provider_name", optionalPayload r.providerName),
      ("resolved_capabilities",
        ofVal (optionalFields r.resolvedCapabilities)),
      ("invocation_mode", optionalPayload r.invocationMode),
      ("request_metadata", ofVal (.dict r.requestMetadata)),
      ("terminal_metadata", ofVal (.dict r.terminalMetadata)),
      ("messages", .list (r.messages.map serializeMessage))]

/-- `str(payload.get(key) or "").strip()`. -/
def requiredText (payload : Fields) (key : String) : String :=
  pyStrip (pyStr (pyOr (getField payload key) (.str "")))

/-- `_coerce_optional_string`: of a string only. -/
def optionalString : PyVal → Option String
  | .str s => stripOrNone s
  | _ => none

/-- `_coerce_mapping`. -/
def textMapping : PyVal → Fields
  | .dict fields => updateFields [] (fields.map fun e => (.str e.1.text, e.2))
  | _ => []

def isMapping : PyVal → Bool
  | .dict _ => true
  | _ => false

/-- `_deserialize_message`: nothing where the payload is no message. -/
def deserializeRunMessage : PyVal → Except CodecError (Option RuntimeMessage)
  | .dict payload =>
    match getField payload "created_at" with
    | .str createdAt =>
      if requiredText payload "message_id" = ""
        ∨ requiredText payload "role" = "" then .ok none
      else do
        let attached ← iterated
          ((lookupKey payload "attachments").getD (.list []))
        let attachments ← (attached.filter isMapping).mapM messageAttachment
        let role ← roleOfValue (requiredText payload "role")
        let content ← deserializeContentBlocks (getField payload "content")
        let createdAt ← orRaise (fromisoformat createdAt) .valueError
        return some
          { messageId := requiredText payload "message_id"
            role, content, createdAt, attachments
            metadata := textMapping (getField payload "metadata") }
    | _ => .ok none
  | _ => .ok none

/-- `int(value)`. -/
def intOf : PyVal → Except CodecError Int
  | .list _ | .dict _ | .other _ => .error .typeError
  | value => orRaise (pyInt value) .valueError

def deserializeRunRecord (payload : Fields) :
    Except CodecError (Option AgentRunRecord) :=
  if ∃ key ∈ ["run_id", "session_id", "agent_name", "spawn_mode", "status"],
      requiredText payload key = "" then .ok none
  else do
    let raw ← iterated (pyOr (getField payload "messages") (.list []))
    let messages ← raw.mapM deserializeRunMessage
    let spawnMode ← SpawnMode.ofValue (requiredText payload "spawn_mode")
    let status ← AgentRunStatus.ofValue (requiredText payload "status")
    let delegationDepth ← intOf
      (pyOr (getField payload "delegation_depth") (.int 0))
    return some
      { runId := requiredText payload "run_id"
        parentRunId := optionalString (getField payload "parent_run_id")
        sessionId := requiredText payload "session_id"
        parentTurnId := optionalString (getField payload "parent_turn_id")
        turnId := optionalString (getField payload "turn_id")
        agentName := requiredText payload "agent_name"
        spawnMode, status
        querySource := optionalString (getField payload "query_source")
        delegationDepth
        requestedModelRoute :=
          optionalString (getField payload "requested_model_route")
        requestedModel := optionalString (getField payload "requested_model")
        requestedEffort := ofVal (getField payload "requested_effort")
        resolvedModelRoute :=
          optionalString (getField payload "resolved_model_route")
        providerName := optionalString (getField payload "provider_name")
        resolvedCapabilities :=
          match getField payload "resolved_capabilities" with
          | .dict fields => some fields
          | _ => none
        invocationMode := optionalString (getField payload "invocation_mode")
        requestMetadata := textMapping (getField payload "request_metadata")
        terminalMetadata :=
          textMapping (getField payload "terminal_metadata")
        messages := messages.filterMap id }

-- ==== model: the stores

inductive StoreCall where
  | upsert (record : AgentRunRecord)
  | get (runId : String)
  | listBySession (sessionId : String)

/-- What a call returns: nothing, the record, or the records of a
session. -/
abbrev Answer := Except CodecError (List AgentRunRecord)

/-- The list, and the id behind it unless it is there. -/
def indexed (ids : List String) (id : String) : List String :=
  if id ∈ ids then ids else ids ++ [id]

structure InMemoryChildRunStore where
  records : Dict String AgentRunRecord := Dict.empty
  sessionIndex : Dict String (List String) := Dict.empty

namespace InMemoryChildRunStore

def upsert (s : InMemoryChildRunStore) (record : AgentRunRecord) :
    InMemoryChildRunStore where
  records := s.records.insert record.runId record
  sessionIndex := s.sessionIndex.insert record.sessionId
    (indexed ((s.sessionIndex.get? record.sessionId).getD []) record.runId)

def listBySession (s : InMemoryChildRunStore) (sessionId : String) :
    List AgentRunRecord :=
  ((s.sessionIndex.get? sessionId).getD []).filterMap s.records.get?

def call (s : InMemoryChildRunStore) :
    StoreCall → Answer × InMemoryChildRunStore
  | .upsert record => (.ok [], s.upsert record)
  | .get runId => (.ok (s.records.get? runId).toList, s)
  | .listBySession sessionId => (.ok (s.listBySession sessionId), s)

end InMemoryChildRunStore

/-- The documents of the run files and the lists of the index files, each
as `json.loads` gives it. -/
structure FileChildRunStore where
  runs : Dict String PyVal := Dict.empty
  sessions : Dict String (List String) := Dict.empty

namespace FileChildRunStore

def readSessionIndex (s : FileChildRunStore) (sessionId : String) :
    List String :=
  ((s.sessions.get? sessionId).getD []).filter fun id => pyStrip id ≠ ""

def upsert (keyText : String → Option String) (s : FileChildRunStore)
    (record : AgentRunRecord) : Except CodecError FileChildRunStore := do
  let document ← orRaise (jsonDumps keyText true (serializeRunRecord record))
    .typeError
  let runIds := s.readSessionIndex record.sessionId
  return {
    runs := s.runs.insert record.runId document
    sessions := if record.runId ∈ runIds then s.sessions
      else s.sessions.insert record.sessionId (runIds ++ [record.runId]) }

def get (s : FileChildRunStore) (runId : String) :
    Except CodecError (Option AgentRunRecord) :=
  match s.runs.get? runId with
  | some (.dict payload) => deserializeRunRecord payload
  | _ => .ok none

def listBySession (s : FileChildRunStore) (sessionId : String) : Answer :=
  ((s.readSessionIndex sessionId).mapM s.get).map fun found =>
    found.filterMap id

def call (keyText : String → Option String) (s : FileChildRunStore) :
    StoreCall → Answer × FileChildRunStore
  | .upsert record =>
    match s.upsert keyText record with
    | .ok next => (.ok [], next)
    | .error e => (.error e, s)
  | .get runId => ((s.get runId).map Option.toList, s)
  | .listBySession sessionId => (s.listBySession sessionId, s)

end FileChildRunStore

/-- The answers to the calls, one after another. -/
def answers {σ : Type} (call : σ → StoreCall → Answer × σ) :
    σ → List StoreCall → List Answer
  | _, [] => []
  | s, c :: calls => (call s c).1 :: answers call (call s c).2 calls

-- ====== the round trip

/-- Stripped texts and JSON values. -/
structure AgentRunRecord.WellFormed (r : AgentRunRecord) : Prop where
  required : ∀ s ∈ [r.runId, r.sessionId, r.agentName], Stripped s
  optional : ∀ o ∈ [r.parentRunId, r.parentTurnId, r.turnId, r.querySource,
    r.requestedModelRoute, r.requestedModel, r.resolvedModelRoute,
    r.providerName, r.invocationMode], ∀ s ∈ o, Stripped s
  requestedEffort : isJson r.requestedEffort = true
  resolvedCapabilities : ∀ f ∈ r.resolvedCapabilities, fieldsJson f = true
  requestMetadata : fieldsJson r.requestMetadata = true
  terminalMetadata : fieldsJson r.terminalMetadata = true
  messages : ∀ m ∈ r.messages, Stripped m.messageId ∧ messageJson m = true

variable {payload : Fields} {key : String}

theorem getField_of_lookupKey {v : PyVal}
    (h : lookupKey payload key = some v) : getField payload key = v := by
  rw [getField, h, Option.getD_some]

theorem requiredText_of_lookupKey {s : String}
    (h : lookupKey payload key = some (.str s)) (hs : Stripped s) :
    requiredText payload key = s := by
  have hgiven : pyOr (.str s) (.str "") = .str s :=
    if_pos (by simpa [PyVal.truthy] using hs.2)
  rw [requiredText, getField_of_lookupKey h, hgiven]
  exact hs.1

theorem optionalString_optionalVal {o : Option String}
    (h : ∀ s ∈ o, Stripped s) : optionalString (optionalVal o) = o := by
  cases o with
  | none => rfl
  | some s => exact stripOrNone_of_stripped (h s rfl)

theorem textMapping_of_json {fields : Fields} (h : fieldsJson fields = true) :
    textMapping (.dict fields) = fields := by
  obtain ⟨hkeys, hnodup⟩ := fieldsJson_iff.1 h
  have hsame : fields.map (fun e => (PyKey.str e.1.text, e.2)) = fields := by
    conv_rhs => rw [← List.map_id fields]
    exact List.map_congr_left fun e he => Prod.ext (hkeys e he).1.symm rfl
  rw [textMapping, hsame]
  exact updateFields_append hnodup

theorem stripped_roleValue (r : MessageRole) : Stripped (roleValue r) := by
  cases r <;> decide

theorem messageJson_metadata {m : RuntimeMessage} (h : messageJson m = true) :
    fieldsJson m.metadata = true := by
  unfold messageJson at h
  exact (Bool.and_eq_true_iff.1 h).2

variable (keyText : String → Option String)

theorem runMessage_roundTrip {m : RuntimeMessage}
    (hstripped : Stripped m.messageId) (h : messageJson m = true) :
    ∃ v, jsonDumps keyText true (serializeMessage m) = some v
      ∧ deserializeRunMessage v = .ok (some m) := by
  obtain ⟨blocks, attached, hdumps, hblocks, hattached⟩ :=
    dumps_message keyText true h
  refine ⟨_, hdumps, ?_⟩
  have hfilter : attached.filter isMapping = attached := by
    refine List.filter_eq_self.2 fun v hv => ?_
    obtain ⟨a, -, ha⟩ := mem_of_mapM hattached v hv
    cases v with
    | dict fields => rfl
    | _ => cases ha
  show deserializeRunMessage (.dict _) = _
  generalize hfields : ((messageFields m blocks attached).map
    fun e => (PyKey.str e.1, e.2)) = fields
  have hid : requiredText fields "message_id" = m.messageId :=
    requiredText_of_lookupKey (hfields ▸ rfl) hstripped
  have hrole : requiredText fields "role" = roleValue m.role :=
    requiredText_of_lookupKey (hfields ▸ rfl) (stripped_roleValue m.role)
  have hcreated : getField fields "created_at" = .str m.createdAt.isoformat :=
    hfields ▸ rfl
  have hattachments : lookupKey fields "attachments"
      = some (.list attached) := hfields ▸ rfl
  have hcontent : getField fields "content" = .list blocks := hfields ▸ rfl
  have hmetadata : getField fields "metadata" = .dict m.metadata :=
    hfields ▸ rfl
  have hread : deserializeContentBlocks (.list blocks) = .ok m.content :=
    hblocks
  have hgiven : ¬(m.messageId = "" ∨ roleValue m.role = "") := by
    rintro (hempty | hempty)
    · exact hstripped.2 hempty
    · exact (stripped_roleValue m.role).2 hempty
  simp only [deserializeRunMessage, hcreated, hid, hrole, if_neg hgiven,
    hattachments, Option.getD_some, iterated, ok_bind, hfilter, hattached,
    roleOfValue_roleValue, hcontent, hread, fromisoformat_isoformat,
    orRaise_some, hmetadata, textMapping_of_json (messageJson_metadata h)]
  rfl

/-- The fields of a record, its effort and messages as they are read. -/
def runFields (r : AgentRunRecord) (effort : PyVal)
    (messages : List PyVal) : List (String × PyVal) :=
  [("run_id", .str r.runId), ("parent_run_id", optionalVal r.parentRunId),
    ("session_id", .str r.sessionId),
    ("parent_turn_id", optionalVal r.parentTurnId),
    ("turn_id", optionalVal r.turnId), ("agent_name", .str r.agentName),
    ("spawn_mode", .str r.spawnMode.value), ("status", .str r.status.value),
    ("query_source", optionalVal r.querySource),
    ("delegation_depth", .int r.delegationDepth),
    ("requested_model_route", optionalVal r.requestedModelRoute),
    ("requested_model", optionalVal r.requestedModel),
    ("requested_effort", effort),
    ("resolved_model_route", optionalVal r.resolvedModelRoute),
    ("provider_name", optionalVal r.providerName),
    ("resolved_capabilities", optionalFields r.resolvedCapabilities),
    ("invocation_mode", optionalVal r.invocationMode),
    ("request_metadata", .dict r.requestMetadata),
    ("terminal_metadata", .dict r.terminalMetadata),
    ("messages", .list messages)]

theorem dumps_optionalFields {o : Option Fields}
    (h : ∀ f ∈ o, fieldsJson f = true) :
    jsonDumps keyText true (ofVal (optionalFields o))
      = some (optionalFields o) := by
  cases o with
  | none => rfl
  | some fields => exact dumps_fields (h fields rfl)

theorem dumps_runRecord {r : AgentRunRecord} (h : r.WellFormed) :
    ∃ effort messages,
      jsonDumps keyText true (serializeRunRecord r)
        = some (dictOf (runFields r effort messages))
      ∧ ofVal effort = r.requestedEffort
      ∧ messages.mapM deserializeRunMessage
        = .ok (r.messages.map some) := by
  obtain ⟨effort, heffort, hread⟩ : ∃ v,
      jsonDumps keyText true r.requestedEffort = some v
      ∧ ofVal v = r.requestedEffort := exists_dumps h.requestedEffort
  have hmessages : ∃ vs, jsonDumpsItems keyText true
      ((r.messages.map some).map
        fun m => (m.map serializeMessage).getD default) = some vs
      ∧ vs.mapM deserializeRunMessage = .ok (r.messages.map some) := by
    refine dumpsItems_of_forall fun o ho => ?_
    obtain ⟨m, hm, rfl⟩ := List.mem_map.1 ho
    exact runMessage_roundTrip keyText (h.messages m hm).1
      (h.messages m hm).2
  obtain ⟨messages, hdumps, hmessages⟩ := hmessages
  refine ⟨effort, messages, dumps_record _ (by simp [runFields]) ?_, hread,
    hmessages⟩
  have hlist : jsonDumpsItems keyText true (r.messages.map serializeMessage)
      = some messages := by
    rw [List.map_map] at hdumps
    exact hdumps
  simp [runFields, strPayload, jsonDumps, scalarVal, dumps_optional, heffort,
    dumps_optionalFields keyText h.resolvedCapabilities, hlist,
    dumps_fields h.requestMetadata, dumps_fields h.terminalMetadata]

theorem stripped_spawnMode (m : SpawnMode) : Stripped m.value := by
  cases m <;> decide

theorem stripped_status (s : AgentRunStatus) : Stripped s.value := by
  cases s <;> decide

theorem runRecord_roundTrip {r : AgentRunRecord} (h : r.WellFormed) :
    ∃ payload, jsonDumps keyText true (serializeRunRecord r)
        = some (.dict payload)
      ∧ deserializeRunRecord payload = .ok (some r) := by
  obtain ⟨effort, messages, hdumps, heffort, hmessages⟩ :=
    dumps_runRecord keyText h
  refine ⟨_, hdumps, ?_⟩
  have hgiven : ∀ s ∈ [r.runId, r.sessionId, r.agentName, r.spawnMode.value,
      r.status.value],
      pyStrip (pyStr (pyOr (.str s) (.str ""))) = s ∧ s ≠ "" := by
    intro s hs
    have hstripped : Stripped s := by
      rcases List.mem_append.1 (show s ∈ [r.runId, r.sessionId, r.agentName]
        ++ [r.spawnMode.value, r.status.value] from hs) with hs | hs
      · exact h.required s hs
      · rcases List.mem_cons.1 hs with rfl | hs
        · exact stripped_spawnMode _
        · exact List.mem_singleton.1 hs ▸ stripped_status _
    rw [pyOr, if_pos (by simpa [PyVal.truthy] using hstripped.2)]
    exact hstripped
  have hoptional : ∀ o ∈ [r.parentRunId, r.parentTurnId, r.turnId,
      r.querySource, r.requestedModelRoute, r.requestedModel,
      r.resolvedModelRoute, r.providerName, r.invocationMode],
      optionalString (optionalVal o) = o :=
    fun o ho => optionalString_optionalVal (h.optional o ho)
  simp only [List.forall_mem_cons, List.not_mem_nil, false_imp_iff,
    implies_true, and_true] at hgiven hoptional
  have hdepth : intOf (pyOr (.int r.delegationDepth) (.int 0))
      = .ok r.delegationDepth := by
    by_cases hzero : r.delegationDepth = 0
    · rw [hzero]
      rfl
    · rw [pyOr, if_pos (by simpa [PyVal.truthy] using hzero)]
      rfl
  have hlist : iterated (pyOr (.list messages) (.list []))
      = .ok messages := by
    cases messages <;> rfl
  have hmode : SpawnMode.ofValue r.spawnMode.value = .ok r.spawnMode := by
    cases r.spawnMode <;> rfl
  have hstatus : AgentRunStatus.ofValue r.status.value = .ok r.status := by
    cases r.status <;> rfl
  have hcapabilities : (match optionalFields r.resolvedCapabilities with
      | .dict fields => some fields
      | _ => none) = r.resolvedCapabilities := by
    cases r.resolvedCapabilities <;> rfl
  simp [deserializeRunRecord, requiredText, getField, lookupKey, runFields,
    hgiven, hoptional, hdepth, hlist, hmode, hstatus, hcapabilities,
    hmessages, heffort, textMapping_of_json h.requestMetadata,
    textMapping_of_json h.terminalMetadata]

-- =========== agreement

/-- The files hold the records that are in memory, and list the runs of a
session as they are listed there. -/
structure Agrees (f : FileChildRunStore) (m : InMemoryChildRunStore) :
    Prop where
  get : ∀ runId, f.get runId = .ok (m.records.get? runId)
  sessions : ∀ sessionId, f.readSessionIndex sessionId
    = (m.sessionIndex.get? sessionId).getD []

variable {f : FileChildRunStore} {m : InMemoryChildRunStore}

theorem readSessionIndex_upsert {f' : FileChildRunStore}
    {keyText : String → Option String} {r : AgentRunRecord}
    (hid : Stripped r.runId) (h : f.upsert keyText r = .ok f')
    (sessionId : String) :
    f'.readSessionIndex sessionId = if sessionId = r.sessionId then
        indexed (f.readSessionIndex r.sessionId) r.runId
      else f.readSessionIndex sessionId := by
  obtain ⟨document, -, h⟩ := bind_eq_ok.1 h
  cases h
  unfold indexed
  by_cases hmem : r.runId ∈ f.readSessionIndex r.sessionId
  · rw [if_pos hmem]
    split
    · next heq =>
      rw [heq]
      rfl
    · rfl
  · rw [if_neg hmem, FileChildRunStore.readSessionIndex, if_neg hmem,
      Dict.get?_insert]
    split
    · next heq =>
      have hblank : pyStrip r.runId ≠ "" := hid.1.symm ▸ hid.2
      simp [FileChildRunStore.readSessionIndex, hblank]
    · rfl

theorem Agrees.upsert (h : Agrees f m) (keyText : String → Option String)
    {r : AgentRunRecord} (hr : r.WellFormed) :
    ∃ f', f.upsert keyText r = .ok f' ∧ Agrees f' (m.upsert r) := by
  obtain ⟨payload, hdumps, hread⟩ := runRecord_roundTrip keyText hr
  obtain ⟨f', hf'⟩ : ∃ f', f.upsert keyText r = .ok f' := by
    rw [FileChildRunStore.upsert, hdumps]
    exact ⟨_, rfl⟩
  refine ⟨f', hf', ?_, ?_⟩
  · intro runId
    have hruns : f'.runs = f.runs.insert r.runId (.dict payload) := by
      obtain ⟨document, hdocument, hnext⟩ := bind_eq_ok.1 hf'
      rw [hdumps] at hdocument
      cases orRaise_eq_ok.1 hdocument
      cases hnext
      rfl
    unfold FileChildRunStore.get InMemoryChildRunStore.upsert
    rw [hruns, Dict.get?_insert, Dict.get?_insert]
    by_cases hsame : runId = r.runId
    · rw [if_pos hsame, if_pos hsame]
      exact hread
    · rw [if_neg hsame, if_neg hsame]
      exact h.get runId
  · intro sessionId
    rw [readSessionIndex_upsert (hr.required _ List.mem_cons_self) hf',
      h.sessions, h.sessions]
    unfold InMemoryChildRunStore.upsert
    rw [Dict.get?_insert]
    split <;> rfl

theorem Agrees.listBySession (h : Agrees f m) (sessionId : String) :
    f.listBySession sessionId = .ok (m.listBySession sessionId) := by
  unfold FileChildRunStore.listBySession InMemoryChildRunStore.listBySession
  rw [h.sessions, mapM_eq_ok_of fun runId _ => h.get runId]
  apply congrArg Except.ok
  exact List.filterMap_map

/-- Both answer every sequence of calls alike, where every record that is
upserted is well formed. -/
theorem child_run_stores_agree (calls : List StoreCall)
    (h : ∀ r, .upsert r ∈ calls → AgentRunRecord.WellFormed r) :
    answers (FileChildRunStore.call keyText) {} calls
      = answers InMemoryChildRunStore.call {} calls := by
  have hrun : ∀ f m, Agrees f m →
      answers (FileChildRunStore.call keyText) f calls
        = answers InMemoryChildRunStore.call m calls := by
    induction calls with
    | nil => exact fun _ _ _ => rfl
    | cons c calls ih =>
      intro f m hagrees
      have hrest := ih fun r hr => h r (List.mem_cons_of_mem _ hr)
      cases c with
      | upsert r =>
        obtain ⟨f', hf', hagrees⟩ :=
          hagrees.upsert keyText (h r List.mem_cons_self)
        simp only [answers, FileChildRunStore.call, hf',
          InMemoryChildRunStore.call, hrest _ _ hagrees]
      | get runId =>
        simp only [answers, FileChildRunStore.call, hagrees.get,
          InMemoryChildRunStore.call, hrest _ _ hagrees]
        rfl
      | listBySession sessionId =>
        simp only [answers, FileChildRunStore.call, hagrees.listBySession,
          InMemoryChildRunStore.call, hrest _ _ hagrees]
  exact hrun {} {} ⟨fun _ => rfl, fun _ => rfl⟩

/-- A run whose one message is the result of a tool. -/
def toolRun (content : Payload) : AgentRunRecord where
  runId := "r"
  parentRunId := none
  sessionId := "s"
  parentTurnId := some "t"
  turnId := none
  agentName := "a"
  spawnMode := .sync
  status := .completed
  messages :=
    [{ messageId := "m"
       role := .user
       content := [.toolResult "u" content false]
       createdAt := newYear
       attachments := []
       metadata := [] }]

theorem stores_agree_list_content :
    answers (FileChildRunStore.call fun _ => none) {}
        [.upsert (toolRun (.list [])), .listBySession "s"]
      = answers InMemoryChildRunStore.call {}
        [.upsert (toolRun (.list [])), .listBySession "s"] := by
  refine child_run_stores_agree _ _ fun r hr => ?_
  rcases List.mem_cons.1 hr with heq | hr
  · cases heq
    exact ⟨by decide +kernel, by decide +kernel, rfl, by decide, rfl, rfl,
      by decide +kernel⟩
  · cases List.mem_singleton.1 hr

/-- Whether an answer has a tool result that is a tuple. -/
def givesTuple : Answer → Bool
  | .ok records => records.any fun r => r.messages.any fun m =>
    m.content.any fun
      | .toolResult _ (.tuple _) _ => true
      | _ => false
  | .error _ => false

/-- A tuple in a tool result comes back from the file as a list. -/
theorem stores_differ_tuple_content :
    answers (FileChildRunStore.call fun _ => none) {}
        [.upsert (toolRun (.tuple [])), .get "r"]
      ≠ answers InMemoryChildRunStore.call {}
        [.upsert (toolRun (.tuple [])), .get "r"] := by
  intro h
  have hgiven : (answers InMemoryChildRunStore.call {}
      [.upsert (toolRun (.tuple [])), .get "r"]).any givesTuple = true := by
    decide +kernel
  rw [← h] at hgiven
  exact absurd hgiven (by decide +kernel)

end WeaveRuntime.Spawning
