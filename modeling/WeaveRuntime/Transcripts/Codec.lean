/-
The transcript entry codec.

`serializeEntry` is the dictionary the file store writes for one entry and
`deserializeEntry` what it makes of a dictionary it reads; the manifest of
artifacts has a codec of its own. A reader names the exception Python
would raise.

# The round trip

A message whose blocks, attachments and metadata hold JSON values
(`RuntimeMessage.isJson`) comes back as it was written, block by block
(`contentBlock_roundTrip`), attachment by attachment
(`attachment_roundTrip`) and as a whole (`entry_roundTrip`). A manifest
entry comes back with a retention class: the empty one is read as the
default (`manifestEntry_roundTrip`).
-/
import WeaveRuntime.Transcripts.Documents

namespace WeaveRuntime.Transcripts

open Lib Python Messages
open Jobs (Fields updateFields)

-- ============= records

structure TranscriptEntry where
  sessionId : String
  turnId : Option String
  message : RuntimeMessage
  createdAt : Datetime

structure TranscriptSession where
  sessionId : String
  entries : List TranscriptEntry

structure ArtifactManifestEntry where
  artifactRef : String
  producingTurn : Option String
  kind : String
  digest : String
  createdAt : Datetime
  retentionClass : String
  metadata : Fields

structure TranscriptArtifact where
  entry : ArtifactManifestEntry
  payload : Payload

/-- The exceptions of the codec. The last is no exception of Python's: a
field holds a value of a type that is never written there, and Python
would go on with it. -/
inductive CodecError where
  | keyError (key : String)
  | typeError
  | valueError
  | otherType (key : String)
  deriving DecidableEq

-- ========= serializing

/-- A text, as a payload. -/
def strPayload (s : String) : Payload := .scalar (.str s)

/-- A text or `None`. -/
def optionalPayload : Option String → Payload
  | none => .scalar .none
  | some s => strPayload s

/-- A dictionary with these keys. -/
def record (fields : List (String × Payload)) : Payload :=
  .mapping (fields.map fun e => (.str e.1, e.2))

def roleValue : MessageRole → String
  | .system => "system"
  | .user => "user"
  | .assistant => "assistant"
  | .tool => "tool"
  | .hook => "hook"
  | .notification => "notification"

def roleOfValue (text : String) : Except CodecError MessageRole :=
  orRaise ([MessageRole.system, .user, .assistant, .tool, .hook,
    .notification].find? fun r => roleValue r = text) .valueError

def serializeContentBlock : ContentBlock → Payload
  | .text text => record [("type", strPayload "text"),
      ("text", strPayload text)]
  | .toolUse toolUseId name input => record [("type", strPayload "tool_use"),
      ("tool_use_id", strPayload toolUseId), ("name", strPayload name),
      ("input", input)]
  | .toolResult toolUseId content isError => record
      [("type", strPayload "tool_result"),
      ("tool_use_id", strPayload toolUseId), ("content", content),
      ("is_error", .scalar (.bool isError))]
  | .thinking thinking signature => record [("type", strPayload "thinking"),
      ("thinking", strPayload thinking),
      ("signature", optionalPayload signature)]
  | .redactedThinking data => record
      [("type", strPayload "redacted_thinking"),
      ("data", optionalPayload data)]

def attachmentAsdict (a : MessageAttachment) : Payload :=
  record [("name", strPayload a.name), ("path", strPayload a.path),
    ("mime_type", optionalPayload a.mimeType),
    ("metadata", ofVal (.dict a.metadata))]

def serializeMessage (m : RuntimeMessage) : Payload :=
  record [("message_id", strPayload m.messageId),
    ("role", strPayload (roleValue m.role)),
    ("content", .list (m.content.map serializeContentBlock)),
    ("created_at", strPayload m.createdAt.isoformat),
    ("attachments", .list (m.attachments.map attachmentAsdict)),
    ("metadata", ofVal (.dict m.metadata))]

def serializeEntry (e : TranscriptEntry) : Payload :=
  record [("session_id", strPayload e.sessionId),
    ("turn_id", optionalPayload e.turnId),
    ("created_at", strPayload e.createdAt.isoformat),
    ("message", serializeMessage e.message)]

def serializeArtifactManifestEntry (e : ArtifactManifestEntry) : Payload :=
  record [("artifact_ref", strPayload e.artifactRef),
    ("producing_turn", optionalPayload e.producingTurn),
    ("kind", strPayload e.kind), ("digest", strPayload e.digest),
    ("created_at", strPayload e.createdAt.isoformat),
    ("retention_class", strPayload e.retentionClass),
    ("metadata", ofVal (.dict e.metadata))]

-- ======= deserializing

/-- The fields of a dictionary. -/
def asDict : PyVal → Except CodecError Fields
  | .dict fields => .ok fields
  | _ => .error .typeError

def asList : PyVal → Except CodecError (List PyVal)
  | .list items => .ok items
  | _ => .error .typeError

/-- `payload[key]`. -/
def item (fields : Fields) (key : String) : Except CodecError PyVal :=
  orRaise (lookupKey fields key) (.keyError key)

def textItem (fields : Fields) (key : String) : Except CodecError String := do
  match ← item fields key with
  | .str s => .ok s
  | _ => .error (.otherType key)

/-- The text or `None` that `payload.get(key)` gives. -/
def optionalText (fields : Fields) (key : String) :
    Except CodecError (Option String) :=
  match lookupKey fields key with
  | none => .ok none
  | some .none => .ok none
  | some (.str s) => .ok (some s)
  | some _ => .error (.otherType key)

def dateItem (fields : Fields) (key : String) :
    Except CodecError Datetime := do
  orRaise (fromisoformat (← textItem fields key)) .valueError

/-- `payload.get(key, {})`, a dictionary. -/
def dictOrEmpty (fields : Fields) (key : String) :
    Except CodecError Fields :=
  match lookupKey fields key with
  | none => .ok []
  | some (.dict inner) => .ok inner
  | some _ => .error (.otherType key)

def optionalStr (value : Option PyVal) : Option String :=
  match value with
  | none => none
  | some .none => none
  | some v => some (pyStr v)

/-- A key of a dictionary; lists and dictionaries are no keys. -/
def asKey : PyVal → Except CodecError PyKey
  | .str s => .ok (.str s)
  | .list _ => .error .typeError
  | .dict _ => .error .typeError
  | v => .ok (.other (pyStr v))

/-- What iterating a dictionary gives of a key. -/
def keyValue : PyKey → PyVal
  | .str s => .str s
  | .other t => .other t

/-- An element of the sequence that `dict` is given. -/
def pairOf : PyVal → Except CodecError (PyKey × PyVal)
  | .list [key, value] => (asKey key).map (·, value)
  | .dict [(key, _), (value, _)] => .ok (key, keyValue value)
  | .str s =>
    match s.toList with
    | [key, value] =>
      .ok (.str (String.singleton key), .str (String.singleton value))
    | _ => .error .valueError
  | .list _ => .error .valueError
  | .dict _ => .error .valueError
  | _ => .error .typeError

/-- `dict(value)`. -/
def pyDict : PyVal → Except CodecError Fields
  | .dict fields => .ok fields
  | .list items => (items.mapM pairOf).map (updateFields [])
  | .str s => if s = "" then .ok [] else .error .valueError
  | _ => .error .typeError

/-- What a `for` takes from the value; a number and `True` are not gone
through. -/
def iterated : PyVal → Except CodecError (List PyVal)
  | .list items => .ok items
  | .str text => .ok (text.toList.map fun c => .str (String.singleton c))
  | .dict items => .ok (items.map fun e => keyValue e.1)
  | _ => .error .typeError

def deserializeContentBlock (payload : PyVal) :
    Except CodecError ContentBlock := do
  let fields ← asDict payload
  let blockType := pyStr (← item fields "type")
  if blockType = "text" then
    return .text (pyStr ((lookupKey fields "text").getD (.str "")))
  else if blockType = "tool_use" then
    let toolUseId := pyStr (← item fields "tool_use_id")
    let name := pyStr (← item fields "name")
    let input ← pyDict ((lookupKey fields "input").getD (.dict []))
    return .toolUse toolUseId name (ofVal (.dict input))
  else if blockType = "tool_result" then
    let toolUseId := pyStr (← item fields "tool_use_id")
    return .toolResult toolUseId
      (ofVal ((lookupKey fields "content").getD .none))
      ((lookupKey fields "is_error").getD (.bool false)).truthy
  else if blockType = "thinking" then
    return .thinking (pyStr ((lookupKey fields "thinking").getD (.str "")))
      (optionalStr (lookupKey fields "signature"))
  else if blockType = "redacted_thinking" then
    return .redactedThinking (optionalStr (lookupKey fields "data"))
  else .error .valueError

def deserializeContentBlocks (payload : PyVal) :
    Except CodecError (List ContentBlock) :=
  match payload with
  | .str s => .ok (if s = "" then [] else [.text s])
  | .list items => items.mapM deserializeContentBlock
  | _ => .error .typeError

def messageAttachment (payload : PyVal) :
    Except CodecError MessageAttachment := do
  let fields ← asDict payload
  raiseIf (∃ e ∈ fields, e.1.text ∉ ["name", "path", "mime_type", "metadata"])
    .typeError
  raiseIf (lookupKey fields "name" = none ∨ lookupKey fields "path" = none)
    .typeError
  return {
    name := ← textItem fields "name"
    path := ← textItem fields "path"
    mimeType := ← optionalText fields "mime_type"
    metadata := ← dictOrEmpty fields "metadata" }

def deserializeMessage (payload : PyVal) :
    Except CodecError RuntimeMessage := do
  let fields ← asDict payload
  let attachments ← (← asList ((lookupKey fields "attachments").getD
    (.list []))).mapM messageAttachment
  let messageId ← textItem fields "message_id"
  let role ← roleOfValue (← textItem fields "role")
  let content ← deserializeContentBlocks (← item fields "content")
  let createdAt ← dateItem fields "created_at"
  let metadata ← dictOrEmpty fields "metadata"
  return { messageId, role, content, createdAt, attachments, metadata }

def deserializeEntry (payload : PyVal) :
    Except CodecError TranscriptEntry := do
  let fields ← asDict payload
  let message ← deserializeMessage (← item fields "message")
  return {
    sessionId := ← textItem fields "session_id"
    turnId := ← optionalText fields "turn_id"
    message := message
    createdAt := ← dateItem fields "created_at" }

/-- `_deserialize_artifact_manifest_entry`: nothing where the payload is no
entry. -/
def deserializeArtifactManifestEntry :
    PyVal → Option ArtifactManifestEntry
  | .dict fields => do
    let artifactRef ← optionalStr (lookupKey fields "artifact_ref")
    let kind ← optionalStr (lookupKey fields "kind")
    let digest ← optionalStr (lookupKey fields "digest")
    let createdAt ← optionalStr (lookupKey fields "created_at")
    let parsedCreatedAt ← fromisoformat createdAt
    return {
      artifactRef, kind, digest
      producingTurn := optionalStr (lookupKey fields "producing_turn")
      createdAt := parsedCreatedAt
      retentionClass := pyStr (pyOr
        ((lookupKey fields "retention_class").getD .none)
        (.str "session_lifetime"))
      metadata := match lookupKey fields "metadata" with
        | some (.dict inner) => inner
        | _ => [] }
  | _ => none

-- =========== JSON data

/-- Whether the payloads of the block are JSON values, the input of a tool
call a mapping. -/
def blockJson : ContentBlock → Bool
  | .toolUse _ _ (.mapping fields) => isJson (.mapping fields)
  | .toolUse _ _ _ => false
  | .toolResult _ content _ => isJson content
  | _ => true

/-- Whether what the message carries is JSON. -/
def messageJson (m : RuntimeMessage) : Bool :=
  m.content.all blockJson && m.attachments.all (fun a => fieldsJson a.metadata)
    && fieldsJson m.metadata

-- ==== what a record reads as

section RoundTrip

variable {keyText : String → Option String} {defaultStr : Bool}

/-- A value under a text key, in a dictionary. -/
def dictOf (fields : List (String × PyVal)) : PyVal :=
  .dict (fields.map fun e => (.str e.1, e.2))

/-- A text or `None` as it is read. -/
def optionalVal : Option String → PyVal
  | none => .none
  | some s => .str s

theorem dumps_optional (o : Option String) :
    jsonDumps keyText defaultStr (optionalPayload o)
      = some (optionalVal o) := by
  cases o with
  | none => rfl
  | some s => rfl

theorem exists_dumps {p : Payload} (h : isJson p = true) :
    ∃ v, jsonDumps keyText defaultStr p = some v ∧ ofVal v = p := by
  obtain ⟨v, rfl⟩ := isJson_exists h
  exact ⟨v, jsonDumps_ofVal h, rfl⟩

theorem dumpsFields_record {fields : List (String × Payload)}
    {vals : List (String × PyVal)}
    (h : List.Forall₂ (fun p v => p.1 = v.1
      ∧ jsonDumps keyText defaultStr p.2 = some v.2) fields vals) :
    jsonDumpsFields keyText defaultStr
        (fields.map fun e => (.str e.1, e.2))
      = some (vals.map fun e => (.str e.1, e.2)) := by
  induction h with
  | nil => rfl
  | cons hp _ ih =>
    obtain ⟨hkey, hval⟩ := hp
    rw [List.map_cons, jsonDumpsFields, ih, hval, jsonKey, hkey]
    rfl

theorem dumps_record {fields : List (String × Payload)}
    (vals : List (String × PyVal)) (hkeys : (vals.map Prod.fst).Nodup)
    (h : List.Forall₂ (fun p v => p.1 = v.1
      ∧ jsonDumps keyText defaultStr p.2 = some v.2) fields vals) :
    jsonDumps keyText defaultStr (record fields) = some (dictOf vals) := by
  have hnodup : ((vals.map fun e => (PyKey.str e.1, e.2)).map
      Prod.fst).Nodup := by
    rw [List.map_map]
    have hcomp : (Prod.fst ∘ fun e : String × PyVal => (PyKey.str e.1, e.2))
        = PyKey.str ∘ Prod.fst := rfl
    rw [hcomp, ← List.map_map]
    exact hkeys.map fun a b hab => PyKey.str.inj hab
  rw [record, jsonDumps, dumpsFields_record h, Option.map_some,
    updateFields_append (by simpa using hnodup)]
  rfl

theorem dumpsItems_of_forall {α : Type} {f : α → Payload}
    {g : PyVal → Except CodecError α} {as : List α}
    (h : ∀ a ∈ as, ∃ v, jsonDumps keyText defaultStr (f a) = some v
      ∧ g v = .ok a) :
    ∃ vs, jsonDumpsItems keyText defaultStr (as.map f) = some vs
      ∧ vs.mapM g = .ok as := by
  induction as with
  | nil => exact ⟨[], rfl, rfl⟩
  | cons a as ih =>
    obtain ⟨v, hv, hg⟩ := h a (List.mem_cons_self ..)
    obtain ⟨vs, hvs, hgs⟩ := ih fun b hb => h b (List.mem_cons_of_mem _ hb)
    refine ⟨v :: vs, ?_, ?_⟩
    · rw [List.map_cons, jsonDumpsItems, hv, hvs]
      rfl
    · rw [List.mapM_cons, hg, hgs]
      rfl

-- ====== the round trip

@[simp] theorem roleOfValue_roleValue (r : MessageRole) :
    roleOfValue (roleValue r) = .ok r := by
  cases r <;> rfl

@[simp] theorem optionalStr_optionalVal (o : Option String) :
    optionalStr (some (optionalVal o)) = o := by
  cases o <;> rfl

theorem contentBlock_roundTrip {b : ContentBlock} (h : blockJson b = true) :
    ∃ v, jsonDumps keyText defaultStr (serializeContentBlock b) = some v
      ∧ deserializeContentBlock v = .ok b := by
  cases b with
  | text text =>
    refine ⟨_, dumps_record [("type", .str "text"), ("text", .str text)]
      (by simp) ?_, rfl⟩
    exact .cons ⟨rfl, rfl⟩ (.cons ⟨rfl, rfl⟩ .nil)
  | toolUse toolUseId name input =>
    cases input with
    | mapping fields =>
      have hread : ∃ v, jsonDumps keyText defaultStr (.mapping fields)
          = some v ∧ ofVal v = .mapping fields := exists_dumps h
      obtain ⟨v, hv, hval⟩ := hread
      refine ⟨_, dumps_record [("type", .str "tool_use"),
        ("tool_use_id", .str toolUseId), ("name", .str name),
        ("input", v)] (by simp) ?_, ?_⟩
      · exact .cons ⟨rfl, rfl⟩ (.cons ⟨rfl, rfl⟩ (.cons ⟨rfl, rfl⟩
          (.cons ⟨rfl, hv⟩ .nil)))
      · -- what looks like a mapping was read as a dictionary
        cases v with
        | dict inner =>
          rw [← hval]
          rfl
        | _ => cases hval
    | _ => cases h
  | toolResult toolUseId content isError =>
    have hread : ∃ v, jsonDumps keyText defaultStr content = some v
        ∧ ofVal v = content := exists_dumps h
    obtain ⟨v, hv, hval⟩ := hread
    refine ⟨_, dumps_record [("type", .str "tool_result"),
      ("tool_use_id", .str toolUseId), ("content", v),
      ("is_error", .bool isError)] (by simp) ?_, ?_⟩
    · exact .cons ⟨rfl, rfl⟩ (.cons ⟨rfl, rfl⟩ (.cons ⟨rfl, hv⟩
        (.cons ⟨rfl, rfl⟩ .nil)))
    · rw [← hval]
      rfl
  | thinking thinking signature =>
    refine ⟨_, dumps_record [("type", .str "thinking"),
      ("thinking", .str thinking), ("signature", optionalVal signature)]
      (by simp) ?_, ?_⟩
    · exact .cons ⟨rfl, rfl⟩ (.cons ⟨rfl, rfl⟩
        (.cons ⟨rfl, dumps_optional signature⟩ .nil))
    · show Except.ok (ContentBlock.thinking _
        (optionalStr (some (optionalVal signature)))) = _
      rw [optionalStr_optionalVal]
      rfl
  | redactedThinking data =>
    refine ⟨_, dumps_record [("type", .str "redacted_thinking"),
      ("data", optionalVal data)] (by simp) ?_, ?_⟩
    · exact .cons ⟨rfl, rfl⟩ (.cons ⟨rfl, dumps_optional data⟩ .nil)
    · show Except.ok (ContentBlock.redactedThinking
        (optionalStr (some (optionalVal data)))) = _
      rw [optionalStr_optionalVal]

variable {fields : Fields} {key : String}

theorem optionalText_optionalVal {o : Option String}
    (h : lookupKey fields key = some (optionalVal o)) :
    optionalText fields key = .ok o := by
  unfold optionalText
  rw [h]
  cases o <;> rfl

theorem dumps_fields (h : fieldsJson fields = true) :
    jsonDumps keyText defaultStr (ofVal (.dict fields))
      = some (.dict fields) :=
  jsonDumps_ofVal h

theorem textItem_of_lookupKey {text : String}
    (h : lookupKey fields key = some (.str text)) :
    textItem fields key = .ok text := by
  unfold textItem item
  rw [h, orRaise_some, ok_bind]

theorem dictOrEmpty_of_lookupKey {inner : Fields}
    (h : lookupKey fields key = some (.dict inner)) :
    dictOrEmpty fields key = .ok inner := by
  unfold dictOrEmpty
  rw [h]

theorem dateItem_of_lookupKey {t : Datetime}
    (h : lookupKey fields key = some (.str t.isoformat)) :
    dateItem fields key = .ok t := by
  unfold dateItem
  rw [textItem_of_lookupKey h, ok_bind, fromisoformat_isoformat,
    orRaise_some]

theorem attachment_roundTrip {a : MessageAttachment}
    (h : fieldsJson a.metadata = true) :
    ∃ v, jsonDumps keyText defaultStr (attachmentAsdict a) = some v
      ∧ messageAttachment v = .ok a := by
  refine ⟨_, dumps_record [("name", .str a.name), ("path", .str a.path),
    ("mime_type", optionalVal a.mimeType), ("metadata", .dict a.metadata)]
    (by simp) ?_, ?_⟩
  · exact .cons ⟨rfl, rfl⟩ (.cons ⟨rfl, rfl⟩
      (.cons ⟨rfl, dumps_optional a.mimeType⟩
        (.cons ⟨rfl, dumps_fields h⟩ .nil)))
  · unfold messageAttachment
    rw [dictOf, asDict, ok_bind, raiseIf_of_not (by simp [PyKey.text]),
      ok_bind, raiseIf_of_not (by simp [lookupKey]), ok_bind,
      textItem_of_lookupKey rfl, ok_bind, textItem_of_lookupKey rfl, ok_bind,
      optionalText_optionalVal rfl, ok_bind, dictOrEmpty_of_lookupKey rfl]
    rfl

/-- The fields of a message, its blocks and attachments as they are
read. -/
def messageFields (m : RuntimeMessage) (blocks attached : List PyVal) :
    List (String × PyVal) :=
  [("message_id", .str m.messageId), ("role", .str (roleValue m.role)),
    ("content", .list blocks), ("created_at", .str m.createdAt.isoformat),
    ("attachments", .list attached), ("metadata", .dict m.metadata)]

variable (keyText defaultStr) in
theorem dumps_message {m : RuntimeMessage} (h : messageJson m = true) :
    ∃ blocks attached,
      jsonDumps keyText defaultStr (serializeMessage m)
        = some (dictOf (messageFields m blocks attached))
      ∧ blocks.mapM deserializeContentBlock = .ok m.content
      ∧ attached.mapM messageAttachment = .ok m.attachments := by
  unfold messageJson at h
  rw [Bool.and_eq_true, Bool.and_eq_true, List.all_eq_true,
    List.all_eq_true] at h
  obtain ⟨⟨hcontent, hattachments⟩, hmetadata⟩ := h
  have hblocks : ∃ vs, jsonDumpsItems keyText defaultStr
      (m.content.map serializeContentBlock) = some vs
      ∧ vs.mapM deserializeContentBlock = .ok m.content :=
    dumpsItems_of_forall fun b hb => contentBlock_roundTrip (hcontent b hb)
  have hattached : ∃ vs, jsonDumpsItems keyText defaultStr
      (m.attachments.map attachmentAsdict) = some vs
      ∧ vs.mapM messageAttachment = .ok m.attachments :=
    dumpsItems_of_forall fun a ha =>
      attachment_roundTrip (hattachments a ha)
  obtain ⟨blocks, hdumpsBlocks, hreadBlocks⟩ := hblocks
  obtain ⟨attached, hdumpsAttached, hreadAttached⟩ := hattached
  refine ⟨blocks, attached, dumps_record _ (by simp [messageFields]) ?_,
    hreadBlocks, hreadAttached⟩
  refine .cons ⟨rfl, rfl⟩ (.cons ⟨rfl, rfl⟩ (.cons ⟨rfl, ?_⟩
    (.cons ⟨rfl, rfl⟩ (.cons ⟨rfl, ?_⟩
      (.cons ⟨rfl, dumps_fields hmetadata⟩ .nil)))))
  · show jsonDumps keyText defaultStr (.list _) = _
    rw [jsonDumps, hdumpsBlocks]
    rfl
  · show jsonDumps keyText defaultStr (.list _) = _
    rw [jsonDumps, hdumpsAttached]
    rfl

theorem message_roundTrip {m : RuntimeMessage} (h : messageJson m = true) :
    ∃ v, jsonDumps keyText defaultStr (serializeMessage m) = some v
      ∧ deserializeMessage v = .ok m := by
  obtain ⟨blocks, attached, hdumps, hblocks, hattached⟩ :=
    dumps_message keyText defaultStr h
  refine ⟨_, hdumps, ?_⟩
  have hread : deserializeContentBlocks (.list blocks) = .ok m.content :=
    hblocks
  unfold deserializeMessage
  rw [dictOf, asDict, ok_bind]
  show (Except.ok attached >>= fun items => items.mapM messageAttachment
    >>= _) = _
  rw [ok_bind, hattached, ok_bind, textItem_of_lookupKey rfl, ok_bind,
    textItem_of_lookupKey rfl, ok_bind, roleOfValue_roleValue, ok_bind]
  show (Except.ok (PyVal.list blocks) >>= fun read =>
    deserializeContentBlocks read >>= _) = _
  rw [ok_bind, hread, ok_bind, dateItem_of_lookupKey rfl, ok_bind,
    dictOrEmpty_of_lookupKey rfl]
  rfl

theorem entry_roundTrip {e : TranscriptEntry}
    (h : messageJson e.message = true) :
    ∃ v, jsonDumps keyText defaultStr (serializeEntry e) = some v
      ∧ deserializeEntry v = .ok e := by
  have hmessage : ∃ v, jsonDumps keyText defaultStr
      (serializeMessage e.message) = some v
      ∧ deserializeMessage v = .ok e.message := message_roundTrip h
  obtain ⟨v, hv, hread⟩ := hmessage
  refine ⟨_, dumps_record [("session_id", .str e.sessionId),
    ("turn_id", optionalVal e.turnId),
    ("created_at", .str e.createdAt.isoformat), ("message", v)]
    (by simp) ?_, ?_⟩
  · exact .cons ⟨rfl, rfl⟩ (.cons ⟨rfl, dumps_optional e.turnId⟩
      (.cons ⟨rfl, rfl⟩ (.cons ⟨rfl, hv⟩ .nil)))
  · unfold deserializeEntry
    rw [dictOf, asDict, ok_bind]
    show (Except.ok v >>= fun read => deserializeMessage read >>= _) = _
    rw [ok_bind, hread, ok_bind, textItem_of_lookupKey rfl, ok_bind,
      optionalText_optionalVal rfl, ok_bind, dateItem_of_lookupKey rfl]
    rfl

-- =========== manifests

/-- The entry as a manifest file gives it back: the empty retention class
is read as the default. -/
def ArtifactManifestEntry.readBack (e : ArtifactManifestEntry) :
    ArtifactManifestEntry :=
  { e with retentionClass :=
      if e.retentionClass = "" then "session_lifetime"
      else e.retentionClass }

theorem retentionClass_or (text : String) :
    pyStr (pyOr (.str text) (.str "session_lifetime"))
      = if text = "" then "session_lifetime" else text := by
  unfold pyOr PyVal.truthy
  by_cases hempty : text = ""
  · rw [if_pos hempty, hempty]
    rfl
  · rw [if_neg hempty, if_pos (by simpa using hempty)]
    rfl

/-- What the reader makes of a dictionary with the fields of an entry. -/
theorem readBack_of_lookupKey {e : ArtifactManifestEntry}
    (href : lookupKey fields "artifact_ref" = some (.str e.artifactRef))
    (hturn : lookupKey fields "producing_turn"
      = some (optionalVal e.producingTurn))
    (hkind : lookupKey fields "kind" = some (.str e.kind))
    (hdigest : lookupKey fields "digest" = some (.str e.digest))
    (hcreated : lookupKey fields "created_at"
      = some (.str e.createdAt.isoformat))
    (hclass : lookupKey fields "retention_class"
      = some (.str e.retentionClass))
    (hmetadata : lookupKey fields "metadata" = some (.dict e.metadata)) :
    deserializeArtifactManifestEntry (.dict fields) = some e.readBack := by
  have hdate : (fromisoformat e.createdAt.isoformat) = some e.createdAt :=
    fromisoformat_isoformat e.createdAt
  have htext : ∀ text, optionalStr (some (.str text)) = some text :=
    fun _ => rfl
  simp only [deserializeArtifactManifestEntry, href, hkind, hdigest, hcreated,
    hturn, hclass, hmetadata, htext, hdate, optionalStr_optionalVal,
    Option.getD_some, retentionClass_or, Option.bind_eq_bind,
    Option.bind_some]
  rfl

theorem manifestEntry_roundTrip {e : ArtifactManifestEntry}
    (h : fieldsJson e.metadata = true) :
    ∃ v, jsonDumps keyText defaultStr (serializeArtifactManifestEntry e)
        = some v
      ∧ deserializeArtifactManifestEntry v = some e.readBack := by
  refine ⟨_, dumps_record [("artifact_ref", .str e.artifactRef),
    ("producing_turn", optionalVal e.producingTurn), ("kind", .str e.kind),
    ("digest", .str e.digest), ("created_at", .str e.createdAt.isoformat),
    ("retention_class", .str e.retentionClass),
    ("metadata", .dict e.metadata)] (by simp) ?_, ?_⟩
  · exact .cons ⟨rfl, rfl⟩ (.cons ⟨rfl, dumps_optional e.producingTurn⟩
      (.cons ⟨rfl, rfl⟩ (.cons ⟨rfl, rfl⟩ (.cons ⟨rfl, rfl⟩
        (.cons ⟨rfl, rfl⟩ (.cons ⟨rfl, dumps_fields h⟩ .nil))))))
  · exact readBack_of_lookupKey rfl rfl rfl rfl rfl rfl rfl

end RoundTrip

end WeaveRuntime.Transcripts
