/-
What a session makes of an inbound event before any turn: messages for
the transcript, replay outputs for the host, completion receipts and
context updates, under one of five admissions.

All of it is read from the event's metadata, a mapping with any values.
The readers have a fallback for what is not of the type they look for;
they raise on a text that is no role, on a receipt payload that cannot be
copied, and where the outcome breaks a rule of its admission.

A mapping is a dictionary here. Whether `deepcopy` copies an object the
runtime does not look into is a parameter, and the ids of `uuid4` are
numbered as they are drawn.
-/
import WeaveRuntime.Jobs.Fields
import WeaveRuntime.Lib.System
import WeaveRuntime.Messages.Model

namespace WeaveRuntime.Sessions

open Jobs (Fields getField setField updateFields)
open Lib
open Messages
open Python

-- ============== events

inductive InboundEventType where
  | userPrompt | systemMessage | taskNotification | hostEvent
  deriving DecidableEq, Repr

def InboundEventType.value : InboundEventType → String
  | .userPrompt => "user_prompt"
  | .systemMessage => "system_message"
  | .taskNotification => "task_notification"
  | .hostEvent => "host_event"

structure InboundEvent where
  eventType : InboundEventType
  content : String
  metadata : Fields

inductive IngressAdmissionKind where
  | admitTurn | localOnly | transcriptOnly | replayOnly | reject
  deriving DecidableEq, Repr

def IngressAdmissionKind.value : IngressAdmissionKind → String
  | .admitTurn => "admit_turn"
  | .localOnly => "local_only"
  | .transcriptOnly => "transcript_only"
  | .replayOnly => "replay_only"
  | .reject => "reject"

def IngressAdmissionKind.ofValue (text : String) :
    Option IngressAdmissionKind :=
  [.admitTurn, .localOnly, .transcriptOnly, .replayOnly, .reject].find?
    fun kind => kind.value = text

/-- What processing an event raises. -/
inductive IngressError where
  | valueError (message : String)
  /-- `deepcopy` of an object that cannot be copied -/
  | copyError
  deriving DecidableEq

def roleValue : MessageRole → String
  | .system => "system"
  | .user => "user"
  | .assistant => "assistant"
  | .tool => "tool"
  | .hook => "hook"
  | .notification => "notification"

def roleOf (text : String) : Option MessageRole :=
  [.system, .user, .assistant, .tool, .hook, .notification].find?
    fun role => roleValue role = text

def messageRole (text : String) : Except IngressError MessageRole :=
  orRaise (roleOf text)
    (.valueError (Python.reprStr text ++ " is not a valid MessageRole"))

-- ============= results

structure IngressReplayOutput where
  outputId : String
  role : MessageRole
  content : List ContentBlock
  visibility : String := "host"
  source : String := "ingress"
  metadata : Fields := []

structure IngressCompletionReceipt where
  receiptId : String
  kind : String
  payload : PyVal

/-- `SessionIngressResult`, with the kind and the reason of its
admission. -/
structure SessionIngressResult where
  kind : IngressAdmissionKind
  reason : String
  normalizedMessages : List RuntimeMessage := []
  replayOutputs : List IngressReplayOutput := []
  completionReceipts : List IngressCompletionReceipt := []
  promptUpdates : Fields := []
  privateUpdates : Fields := []

def SessionIngressResult.validate (result : SessionIngressResult) :
    Except IngressError Unit := do
  raiseIf (result.kind = .admitTurn ∧ result.normalizedMessages.isEmpty)
    (.valueError
      "admit_turn ingress results must include normalized messages")
  raiseIf (result.kind = .transcriptOnly ∧ result.normalizedMessages.isEmpty)
    (.valueError
      "transcript_only ingress results must include normalized messages")
  raiseIf (result.kind = .replayOnly ∧ result.replayOutputs.isEmpty)
    (.valueError "replay_only ingress results must include replay outputs")
  raiseIf (result.kind ≠ .admitTurn ∧ !result.promptUpdates.isEmpty)
    (.valueError (result.kind.value
      ++ " ingress results cannot carry prompt updates"))
  raiseIf (result.kind ∈ [.replayOnly, .reject]
      ∧ !result.normalizedMessages.isEmpty)
    (.valueError (result.kind.value
      ++ " ingress results cannot carry normalized messages"))

def SessionIngressResult.make (result : SessionIngressResult) :
    Except IngressError SessionIngressResult := do
  result.validate
  return result

/-- What processing an event depends on besides the event. -/
structure IngressEnvironment where
  /-- `ingress_prompt_defaults` of the services and of the session -/
  servicePromptDefaults : PyVal
  sessionPromptDefaults : PyVal
  /-- `ingress_private_defaults` of the services and of the session -/
  servicePrivateDefaults : PyVal
  sessionPrivateDefaults : PyVal
  freshId : Nat → String
  now : Datetime
  /-- `deepcopy` copies the object with this text -/
  copyable : String → Bool

-- ============ mappings

/-- `{str(key): value for key, value in fields.items()}`. -/
def keyed (fields : Fields) : Fields :=
  updateFields [] (fields.map fun entry => (.str entry.1.text, entry.2))

/-- The mapping, if the value is one. -/
def mappingOf : PyVal → Option Fields
  | .dict fields => some fields
  | _ => none

def copyMapping (value : PyVal) : Fields := keyed ((mappingOf value).getD [])

def mergeContextUpdates (values : List PyVal) : Fields :=
  values.foldl (fun merged value =>
    updateFields merged (((mappingOf value).getD []).map fun entry =>
      (.str entry.1.text, entry.2))) []

def controlMetadataKeys : List String :=
  ["admission_kind", "ingress_reason", "prompt_updates", "private_updates",
    "replay_outputs", "completion_receipts", "replay_text", "replay_role",
    "replay_visibility", "replay_source", "replay_metadata",
    "ingress_priority", "role", "source", "visibility",
    "transcript_visible"]

def privateOnlyMetadataKeys : List String :=
  ["execution_policy_state", "permission_context"]

/-- The fields under other keys than these. -/
def without (names : List String) (fields : Fields) : Fields :=
  fields.filter fun entry => entry.1 ∉ names.map PyKey.str

mutual

/-- `deepcopy` returns. -/
def copies (copyable : String → Bool) : PyVal → Bool
  | .list items => copiesItems copyable items
  | .dict fields => copiesFields copyable fields
  | .other text => copyable text
  | _ => true

def copiesItems (copyable : String → Bool) : List PyVal → Bool
  | [] => true
  | item :: items => copies copyable item && copiesItems copyable items

def copiesFields (copyable : String → Bool) : List (PyKey × PyVal) → Bool
  | [] => true
  | (.str _, value) :: fields =>
    copies copyable value && copiesFields copyable fields
  | (.other text, value) :: fields =>
    copyable text && copies copyable value && copiesFields copyable fields

end

def deepcopy (env : IngressEnvironment) (value : PyVal) :
    Except IngressError PyVal :=
  if copies env.copyable value then .ok value else .error .copyError

-- =========== admission

def defaultAdmission : InboundEventType → IngressAdmissionKind
  | .userPrompt | .systemMessage => .admitTurn
  | .taskNotification => .transcriptOnly
  | .hostEvent => .localOnly

def resolveAdmissionKind (eventType : InboundEventType) (metadata : Fields) :
    IngressAdmissionKind × Option String :=
  match getField metadata "admission_kind" with
  | .str raw =>
    match IngressAdmissionKind.ofValue raw with
    | some kind => (kind, none)
    | none => (.reject, some raw)
  | _ => (defaultAdmission eventType, none)

def wantsTranscriptEntry (kind : IngressAdmissionKind) (metadata : Fields) :
    Bool :=
  match getField metadata "transcript_visible" with
  | .bool explicit => explicit
  | _ => kind = .admitTurn || kind = .transcriptOnly

def coerceMessageRole (value : PyVal) (fallback : MessageRole) :
    Except IngressError MessageRole :=
  match value with
  | .str text => messageRole text
  | _ => .ok fallback

def resolveMessageRole (eventType : InboundEventType) (metadata : Fields) :
    Except IngressError MessageRole :=
  match getField metadata "role" with
  | .none => .ok (match eventType with
      | .systemMessage => .system
      | .taskNotification => .notification
      | _ => .user)
  | explicit => coerceMessageRole explicit .user

-- ============ messages

def textBlocks (text : String) : List ContentBlock :=
  if text = "" then [] else [.text text]

/-- The name of an attachment that has none: the last part of its path. -/
def lastPart (path : String) : String :=
  let part := String.ofList ((path.toList.splitOn '/').getLastD [])
  if part = "" then path else part

def attachmentOf (item : Fields) : Option MessageAttachment :=
  match getField item "path" with
  | .str path =>
    if pyStrip path = "" then none
    else
      let fallback := lastPart (pyStrip path)
      let mimeType := getField item "mime_type"
      some {
        name := pyStrip (match getField item "name" with
          | .str name => if pyStrip name = "" then fallback else name
          | _ => fallback)
        path := pyStrip path
        mimeType :=
          if mimeType.truthy then some (pyStrip (pyStr mimeType)) else none
        metadata := keyed (without ["name", "path", "mime_type"] item) }
  | _ => none

def coerceAttachments (metadata : Fields) : List MessageAttachment :=
  match getField metadata "attachments" with
  | .list items => (items.filterMap mappingOf).filterMap attachmentOf
  | _ => []

def setDefault (fields : Fields) (key value : String) : Fields :=
  if (lookupKey fields key).isSome then fields
  else setField fields (.str key) (.str value)

def labelled (eventType : InboundEventType) (fields : Fields) (key : String)
    (explicit : PyVal) (fallback : String) : Fields :=
  match explicit with
  | .str text =>
    if text ≠ "" then setDefault fields key text
    else if eventType = .userPrompt then fields
    else setDefault fields key fallback
  | _ =>
    if eventType = .userPrompt then fields
    else setDefault fields key fallback

def normalizedMessageMetadata (metadata : Fields)
    (eventType : InboundEventType) : Fields :=
  let filtered := keyed
    (without (controlMetadataKeys ++ privateOnlyMetadataKeys) metadata)
  labelled eventType
    (labelled eventType filtered "source" (getField metadata "source")
      eventType.value)
    "visibility" (getField metadata "visibility") "transcript"

def buildNormalizedMessages (env : IngressEnvironment) (event : InboundEvent)
    (metadata : Fields) (kind : IngressAdmissionKind) :
    Except IngressError (List RuntimeMessage) :=
  if kind = .replayOnly ∨ kind = .reject then .ok []
  else if event.content = "" ∧ !wantsTranscriptEntry kind metadata then .ok []
  else if kind = .localOnly ∧ !wantsTranscriptEntry kind metadata then .ok []
  else do
    let role ← resolveMessageRole event.eventType metadata
    return [{
      messageId := env.freshId 0
      role := role
      content := textBlocks event.content
      createdAt := env.now
      attachments := coerceAttachments metadata
      metadata := normalizedMessageMetadata metadata event.eventType }]

-- ====== replay outputs

def explicitOutput (env : IngressEnvironment) (eventType : InboundEventType)
    (entry : Fields × Nat) : Except IngressError IngressReplayOutput := do
  let raw := entry.1
  let role ← coerceMessageRole (getField raw "role") .notification
  return {
    outputId := pyStr (pyOr (getField raw "output_id")
      (.str (env.freshId (entry.2 + 1))))
    role := role
    content := textBlocks (pyStr (pyOr (getField raw "content") (.str "")))
    visibility := pyStr (pyOr (getField raw "visibility") (.str "host"))
    source := pyStr (pyOr (getField raw "source") (.str eventType.value))
    metadata := copyMapping (getField raw "metadata") }

def textOutput (env : IngressEnvironment) (eventType : InboundEventType)
    (metadata : Fields) (text : String) :
    Except IngressError IngressReplayOutput := do
  let role ← coerceMessageRole (getField metadata "replay_role") .notification
  return {
    outputId := env.freshId 1
    role := role
    content := textBlocks text
    visibility :=
      pyStr (pyOr (getField metadata "replay_visibility") (.str "host"))
    source := pyStr (pyOr (getField metadata "replay_source")
      (.str eventType.value))
    metadata := copyMapping (getField metadata "replay_metadata") }

def replayText (metadata : Fields) : Option String :=
  match getField metadata "replay_text" with
  | .str text => if text = "" then none else some text
  | _ => none

def listOf : PyVal → Option (List PyVal)
  | .list items => some items
  | _ => none

def buildReplayOutputs (env : IngressEnvironment) (event : InboundEvent)
    (metadata : Fields) (kind : IngressAdmissionKind) :
    Except IngressError (List IngressReplayOutput) :=
  match listOf (getField metadata "replay_outputs"), replayText metadata with
  | some raws, _ =>
    (raws.filterMap mappingOf).zipIdx.mapM
      (explicitOutput env event.eventType)
  | none, some text => do
    let output ← textOutput env event.eventType metadata text
    return [output]
  | none, none =>
    .ok (if kind = .localOnly ∧ event.content ≠ "" then
        [{ outputId := env.freshId 1
           role := .notification
           content := textBlocks event.content
           visibility := "host"
           source := event.eventType.value }]
      else [])

-- ============ receipts

/-- `_copy_receipt_payload`: of a mapping the values are copied, under the
texts of its keys. -/
def copyReceiptPayload (env : IngressEnvironment) (value : PyVal) :
    Except IngressError PyVal :=
  match value with
  | .dict fields =>
    if fields.all fun entry => copies env.copyable entry.2 then
      .ok (.dict (keyed fields))
    else .error .copyError
  | value => deepcopy env value

/-- The constructor of a receipt. -/
def completionReceipt (env : IngressEnvironment) (receiptId kind : String)
    (payload : PyVal) : Except IngressError IngressCompletionReceipt := do
  raiseIf (pyStrip receiptId = "")
    (.valueError "completion receipts require a non-empty receipt_id")
  raiseIf (pyStrip kind = "")
    (.valueError "completion receipts require a non-empty kind")
  let copied ← deepcopy env payload
  return ⟨pyStrip receiptId, pyStrip kind, copied⟩

def strippedField (fields : Fields) (key : String) : String :=
  pyStrip (pyStr (pyOr (getField fields key) (.str "")))

def rawReceipts (metadata : Fields) : List Fields :=
  (((listOf (getField metadata "completion_receipts")).getD []).filterMap
    mappingOf).filter fun raw =>
      strippedField raw "receipt_id" ≠ "" && strippedField raw "kind" ≠ ""

/-- The receipt of such a mapping. -/
def receiptOf (env : IngressEnvironment) (raw : Fields) :
    Except IngressError IngressCompletionReceipt := do
  let payload ← copyReceiptPayload env (getField raw "payload")
  completionReceipt env (strippedField raw "receipt_id")
    (strippedField raw "kind") payload

def buildCompletionReceipts (env : IngressEnvironment) (metadata : Fields) :
    Except IngressError (List IngressCompletionReceipt) :=
  (rawReceipts metadata).mapM (receiptOf env)

-- ========== processing

def invalidAdmissionPrivateUpdates : Option String → Fields
  | none => []
  | some raw => [(.str "invalid_admission_kind", .str raw)]

/-- The result of an admission, from everything that was built: each
classmethod takes what its admission carries. -/
def resultOf (kind : IngressAdmissionKind) (reason : String)
    (messages : List RuntimeMessage) (outputs : List IngressReplayOutput)
    (receipts : List IngressCompletionReceipt)
    (promptUpdates privateUpdates : Fields) : SessionIngressResult :=
  let base : SessionIngressResult :=
    { kind := kind
      reason := reason
      replayOutputs := outputs
      completionReceipts := receipts
      privateUpdates := privateUpdates }
  match kind with
  | .admitTurn =>
    { base with
      normalizedMessages := messages, promptUpdates := promptUpdates }
  | .localOnly | .transcriptOnly =>
    { base with normalizedMessages := messages }
  | .replayOnly | .reject => base

def process (env : IngressEnvironment) (event : InboundEvent) :
    Except IngressError SessionIngressResult := do
  let metadata := copyMapping (.dict event.metadata)
  let (kind, invalid) := resolveAdmissionKind event.eventType metadata
  let reason := pyStr (pyOr (getField metadata "ingress_reason") (.str
    (if invalid.isSome then "invalid_admission_kind" else kind.value)))
  let messages ← buildNormalizedMessages env event metadata kind
  let outputs ← buildReplayOutputs env event metadata kind
  let receipts ← buildCompletionReceipts env metadata
  let promptUpdates := mergeContextUpdates [env.servicePromptDefaults,
    env.sessionPromptDefaults, getField metadata "prompt_updates"]
  let privateUpdates := mergeContextUpdates [env.servicePrivateDefaults,
    env.sessionPrivateDefaults, .dict (without controlMetadataKeys metadata),
    .dict (invalidAdmissionPrivateUpdates invalid),
    getField metadata "private_updates"]
  (resultOf kind reason messages outputs receipts promptUpdates
    privateUpdates).make

-- =============== queue

structure SessionCommand where
  commandId : String
  priority : Int
  createdAt : Nat
  event : InboundEvent

def SessionCommand.before (command other : SessionCommand) : Bool :=
  other.priority < command.priority
    || (command.priority = other.priority
      && command.createdAt ≤ other.createdAt)

/-- A session as far as its commands go. The commands it accepted and the
results of processing them are kept to speak about them. -/
structure CommandQueue (σ : Type) where
  session : σ
  queued : List SessionCommand
  accepted : List SessionCommand
  results : List (SessionCommand × SessionIngressResult)

inductive QueueAction (σ : Type) where
  /-- `enqueue_event` -/
  | enqueue (command : SessionCommand)
  /-- a turn of the loop of `stream_until_idle`, with what follows the
  processing in it -/
  | drain (follow : σ → SessionIngressResult → σ)

/-- One turn of the loop. An exception of the processing leaves the loop,
which a later call enters again. -/
def drainOne {σ : Type} (environment : σ → IngressEnvironment)
    (s : CommandQueue σ) (follow : σ → SessionIngressResult → σ) :
    Option (CommandQueue σ) :=
  match s.queued with
  | [] => none
  | command :: rest =>
    match process (environment s.session) command.event with
    | .ok result =>
      some { s with
        session := follow s.session result
        queued := rest
        results := s.results ++ [(command, result)] }
    | .error _ => some { s with queued := rest }

/-- The commands of a session with these ingress defaults. -/
def commandQueue {σ : Type} (environment : σ → IngressEnvironment) :
    System (CommandQueue σ) (QueueAction σ) :=
  ⟨fun s action =>
    match action with
    | .enqueue command =>
      some { s with
        queued := (s.queued ++ [command]).mergeSort SessionCommand.before
        accepted := s.accepted ++ [command] }
    | .drain follow => drainOne environment s follow⟩

end WeaveRuntime.Sessions
