/-
Runtime messages and the content blocks they carry.

A block is one of the five kinds of `ContentBlock`; the payloads of the
tool blocks are Python values, kept down to what the runtime tells apart
in them (`Payload`): mappings, lists, tuples, and everything else.
-/
import WeaveRuntime.Jobs.Model

namespace WeaveRuntime.Messages

open Python
open Jobs (Fields updateFields)

-- ============ payloads

/-- A value that is neither a mapping nor a sequence. -/
inductive Scalar where
  | none
  | bool (b : Bool)
  | int (i : Int)
  | float (repr : String)
  | str (s : String)
  | other (text : String)
  deriving DecidableEq, Repr

/-- The input of a tool call, or the content of its result. -/
inductive Payload where
  | scalar (value : Scalar)
  | list (items : List Payload)
  | tuple (items : List Payload)
  | mapping (items : List (PyKey × Payload))
  deriving Repr

instance : Inhabited Payload := ⟨.scalar .none⟩

def setItem : List (PyKey × Payload) → PyKey → Payload →
    List (PyKey × Payload)
  | [], key, value => [(key, value)]
  | (k, v) :: rest, key, value =>
    if k = key then (k, value) :: rest else (k, v) :: setItem rest key value

mutual

/-- `_normalize_payload`: keys become strings, tuples become lists. -/
def normalizePayload : Payload → Payload
  | .mapping items => .mapping ((normalizeFields items).foldl
      (fun acc e => setItem acc (.str e.1) e.2) [])
  | .list items => .list (normalizeItems items)
  | .tuple items => .list (normalizeItems items)
  | .scalar value => .scalar value

def normalizeItems : List Payload → List Payload
  | [] => []
  | value :: items => normalizePayload value :: normalizeItems items

/-- The `str(key): value` pairs of the comprehension, in order. -/
def normalizeFields : List (PyKey × Payload) → List (String × Payload)
  | [] => []
  | (key, value) :: items =>
    (key.text, normalizePayload value) :: normalizeFields items

end

-- ============ messages

inductive MessageRole where
  | system | user | assistant | tool | hook | notification
  deriving DecidableEq, Repr

def MessageRole.apiBound : MessageRole → Bool
  | .system | .user | .assistant => true
  | .tool | .hook | .notification => false

inductive ContentBlock where
  | text (text : String)
  | toolUse (toolUseId name : String) (input : Payload)
  | toolResult (toolUseId : String) (content : Payload) (isError : Bool)
  | thinking (thinking : String) (signature : Option String)
  | redactedThinking (data : Option String)
  deriving Repr

structure MessageAttachment where
  name : String
  path : String
  mimeType : Option String
  metadata : Fields

structure RuntimeMessage where
  messageId : String
  role : MessageRole
  content : List ContentBlock
  createdAt : Datetime
  attachments : List MessageAttachment
  metadata : Fields

end WeaveRuntime.Messages
