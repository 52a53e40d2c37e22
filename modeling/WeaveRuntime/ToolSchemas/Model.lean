/-
Strict tool schemas: the schema a tool shows the provider, and the way
back for the arguments the provider sends.

`normalizeToolSchema` turns a tool's `input_schema` into the strict schema
of a function tool. Every object is closed and lists all its properties as
required, an optional property is made nullable, and an object without
declared properties becomes a string that holds a JSON text. The same
recursion writes a restoration plan, by which
`restoreToolInputPayload` leaves out the nulls of optional properties and
decodes the strings.

# What is a parameter

The text codec of the `json` module is a parameter (`JsonText`): what the
code relies on is that a text written from a value reads back as that
value.
-/
import WeaveRuntime.Lib.JsonSchema
import WeaveRuntime.Lib.Raise
import WeaveRuntime.Python.Value

namespace WeaveRuntime.ToolSchemas

open Lib
open Python

/-- `json.dumps` and `json.loads`; a text that is no JSON is refused with
the decoder's message. -/
structure JsonText where
  dumps : Json → String
  loads : String → Except String Json
  loads_dumps : ∀ v : Json, v.Proper → loads (dumps v) = .ok v

/-- A tool that declares its input as a JSON Schema document. -/
structure ToolDefinition where
  name : String
  inputSchema : Schema
  proper : inputSchema.Proper

/-- `OpenAIAdapterError` of failure class `tool_schema_error`. -/
structure AdapterError where
  message : String
  schemaPath : String
  deriving DecidableEq, Repr

-- ================ plan

/-- `_RoundTripRestorationPlan`. -/
inductive Plan where
  | plan (restoreNullToOmission decodeJsonObjectSurrogate : Bool)
      (properties : List (String × Plan)) (arrayItemPlan : Option Plan)

structure NormalizedToolSchema where
  schema : Schema
  restorationPlan : Plan

-- =============== types

def coerceTypeItems (toolName path : String) :
    List Json → List String → Except AdapterError (List String)
  | [], normalized => .ok normalized
  | .str item :: items, normalized =>
    let stripped := pyStrip item
    if stripped ≠ "" ∧ stripped ∉ normalized then
      coerceTypeItems toolName path items (normalized ++ [stripped])
    else coerceTypeItems toolName path items normalized
  | _ :: _, _ =>
    .error ⟨"Tool '" ++ toolName ++ "' schema type at " ++ path
      ++ " must contain only strings.", path⟩

def coerceSchemaTypes (toolName path : String) :
    Option Json → Except AdapterError (List String)
  | none => .ok []
  | some .null => .ok []
  | some (.str rawType) =>
    let stripped := pyStrip rawType
    .ok (if stripped ≠ "" then [stripped] else [])
  | some (.arr items) => coerceTypeItems toolName path items []
  | some _ =>
    .error ⟨"Tool '" ++ toolName ++ "' schema type at " ++ path
      ++ " must be a string or string array.", path⟩

/-- The names `_apply_optional_nullable` resolves. -/
def resolvedTypes (types : List String) (required : Bool) : List String :=
  if !required ∧ "null" ∉ types then types ++ ["null"] else types

def applyOptionalNullable (types : List String) (required : Bool) : Json :=
  match resolvedTypes types required with
  | [single] => .str single
  | resolved => .arr (resolved.map .str)

-- ======= normalisation

/-- The keywords a normalised schema leaves out. -/
def droppedKeywords : List String := ["$schema", "definitions", "$defs"]

/-- The other keywords of the normalised copy. -/
def keptOthers (k : Keywords) : List (String × Json) :=
  k.others.filter fun o => o.1 ∉ droppedKeywords

def guidance : String := "Pass a JSON object encoded as a string."

def openObjectSurrogateSchema (k : Keywords) (items : Option Schema)
    (required : Bool) : Schema :=
  let existing := k.description.getD ""
  .mapping
    { type := some (applyOptionalNullable ["string"] required)
      enum := k.enum
      description := some
        (if existing = "" then guidance else existing ++ " " ++ guidance)
      others := keptOthers k }
    .absent items .absent

def declaredRequired (k : Keywords) : List String :=
  (k.required.getD []).filter fun name => name ≠ ""

def inferredTypes (properties : Slot (String × Schema))
    (items : Option Schema) (additional : Additional Schema) :
    List String :=
  match properties, additional, items with
  | .absent, .absent, none => []
  | .absent, .absent, some _ => ["array"]
  | _, _, _ => ["object"]

/-- The types of a node: what it declares, else what its keywords
imply. -/
def nodeTypes (toolName path : String) (k : Keywords)
    (properties : Slot (String × Schema)) (items : Option Schema)
    (additional : Additional Schema) : Except AdapterError (List String) := do
  let types ← coerceSchemaTypes toolName path k.type
  if types ≠ [] then return types
  let inferred := inferredTypes properties items additional
  if inferred ≠ [] then return inferred
  throw ⟨"Tool '" ++ toolName ++ "' schema at " ++ path
    ++ " must declare a JSON Schema type.", path⟩

/-- `properties` is a mapping, or counts as an empty one. -/
def checkProperties (toolName path : String)
    (properties : Slot (String × Schema)) : Except AdapterError Unit :=
  match properties with
  | .malformed =>
    throw ⟨"Tool '" ++ toolName ++ "' object schema at " ++ path
      ++ " must declare object properties.", path ++ ".properties"⟩
  | _ => pure ()

def checkAdditional (toolName path : String)
    (additional : Additional Schema) : Except AdapterError Unit :=
  match additional with
  | .schema _ =>
    throw ⟨"Tool '" ++ toolName ++ "' schema at " ++ path
      ++ " cannot use schema-valued additionalProperties with the "
      ++ "bundled OpenAI Responses adapter.",
      path ++ ".additionalProperties"⟩
  | _ => pure ()

/-- `additionalProperties is False`. -/
def isForbidden : Additional Schema → Bool
  | .forbidden => true
  | _ => false

def isMapping : Schema → Bool
  | .mapping _ _ _ _ => true
  | .other _ => false

mutual

def normalizeSchemaNode (toolName : String) :
    Schema → String → Bool → Except AdapterError NormalizedToolSchema
  | .other _, path, _ =>
    throw ⟨"Tool '" ++ toolName ++ "' schema at " ++ path
      ++ " must be an object.", path⟩
  | .mapping k properties items additional, path, required => do
    let types ← nodeTypes toolName path k properties items additional
    let restoreNullToOmission : Bool := !required && "null" ∉ types
    let normalized : Keywords :=
      { k with
        type := some (applyOptionalNullable types required)
        others := keptOthers k }
    if "object" ∈ types then
      checkProperties toolName path properties
      if properties.declared.isEmpty ∧ !isForbidden additional then
        return ⟨openObjectSurrogateSchema k items required,
          .plan restoreNullToOmission true [] none⟩
      let children ← normalizeDeclared toolName (declaredRequired k) path
        properties
      checkAdditional toolName path additional
      return ⟨.mapping { normalized with
            required := some (children.map Prod.fst) }
          (.given (children.map fun c => (c.1, c.2.schema))) items
          .forbidden,
        .plan restoreNullToOmission false
          (children.map fun c => (c.1, c.2.restorationPlan)) none⟩
    else if "array" ∈ types then
      let item ← normalizeItems toolName path items
      return ⟨.mapping normalized properties (some item.schema) additional,
        .plan restoreNullToOmission false [] (some item.restorationPlan)⟩
    else
      return ⟨.mapping normalized properties items additional,
        .plan restoreNullToOmission false [] none⟩

def normalizeItems (toolName path : String) :
    Option Schema → Except AdapterError NormalizedToolSchema
  | some items =>
    if isMapping items then
      normalizeSchemaNode toolName items (path ++ ".items") true
    else
      throw ⟨"Tool '" ++ toolName ++ "' array schema at " ++ path
        ++ " must declare an item schema.", path ++ ".items"⟩
  | none =>
    throw ⟨"Tool '" ++ toolName ++ "' array schema at " ++ path
      ++ " must declare an item schema.", path ++ ".items"⟩

def normalizeDeclared (toolName : String) (required : List String)
    (path : String) : Slot (String × Schema) →
      Except AdapterError (List (String × NormalizedToolSchema))
  | .given entries => normalizeProperties toolName required path entries
  | .absent => pure []
  | .malformed => pure []

def normalizeProperties (toolName : String) (required : List String)
    (path : String) :
    List (String × Schema) →
      Except AdapterError (List (String × NormalizedToolSchema))
  | [] => pure []
  | (name, propertySchema) :: entries => do
    let child ← normalizeSchemaNode toolName propertySchema
      (path ++ ".properties." ++ name) (decide (name ∈ required))
    let children ← normalizeProperties toolName required path entries
    return (name, child) :: children

end

/-- A mapping without a single keyword. -/
def isEmptyMapping : Schema → Bool
  | .mapping k .absent none .absent =>
    k.type.isNone && k.required.isNone && k.enum.isNone
      && k.description.isNone && k.others.isEmpty
  | _ => false

def normalizeToolSchema (tool : ToolDefinition) :
    Except AdapterError NormalizedToolSchema := do
  let schema := tool.inputSchema
  if !isMapping schema ∨ isEmptyMapping schema then
    throw ⟨"Tool '" ++ tool.name ++ "' must declare an object input_schema "
      ++ "for the bundled OpenAI route.", "$.input_schema"⟩
  let normalized ← normalizeSchemaNode tool.name schema "$.input_schema" true
  let normalizedTypes ← coerceSchemaTypes tool.name "$.input_schema"
    normalized.schema.keywords.type
  if "object" ∉ normalizedTypes then
    throw ⟨"Tool '" ++ tool.name ++ "' input_schema must resolve to an "
      ++ "object for Responses function tools.", "$.input_schema.type"⟩
  return normalized

-- ========= restoration

inductive PathSegment where
  | key (name : String)
  | index (i : Nat)
  deriving DecidableEq, Repr

def formatRoundTripPath (path : List PathSegment) : String :=
  if path = [] then "$"
  else path.foldl (fun formatted segment =>
    match segment with
    | .index i => formatted ++ "[" ++ toString i ++ "]"
    | .key name =>
      if formatted = "" then name else formatted ++ "." ++ name) ""

section Restore

variable (text : JsonText) (toolName : String)

def decodeJsonObjectSurrogateValue (value : Json)
    (path : List PathSegment) : Except AdapterError Json :=
  let formatted := formatRoundTripPath path
  match value with
  | .null => .ok .null
  | .obj fields => .ok (.obj fields)
  | .str s =>
    match text.loads s with
    | .error message =>
      .error ⟨"OpenAI function call '" ++ toolName
        ++ "' returned invalid JSON for '" ++ formatted ++ "': "
        ++ message ++ ".", formatted⟩
    | .ok (.obj fields) => .ok (.obj fields)
    | .ok _ =>
      .error ⟨"OpenAI function call '" ++ toolName
        ++ "' returned a non-object JSON payload for '" ++ formatted
        ++ "'.", formatted⟩
  | _ =>
    .error ⟨"OpenAI function call '" ++ toolName
      ++ "' returned a non-string JSON-object surrogate for '"
      ++ formatted ++ "'.", formatted⟩

/-- `restored_items`, for the item plan's restoration. -/
def restoreItems
    (restore : Json → List PathSegment → Except AdapterError (Option Json))
    (path : List PathSegment) : Nat → List Json →
      Except AdapterError (List Json)
  | _, [] => .ok []
  | index, item :: items => do
    let restoredItem ← restore item (path ++ [.index index])
    let restoredItems ← restoreItems restore path (index + 1) items
    return restoredItem.getD .null :: restoredItems

mutual

def restoreRoundTripValue : Plan → Json → List PathSegment →
    Except AdapterError (Option Json)
  | .plan omits decodes properties item, value, path => do
    if value.isNull ∧ omits then return none
    let value ← if decodes then
        decodeJsonObjectSurrogateValue text toolName value path
      else pure value
    match value with
    | .obj fields =>
      let restored ← restoreProperties properties fields path
      return some (.obj restored)
    | .arr items =>
      match item with
      | some plan =>
        let restored ← restoreItems
          (fun v p => restoreRoundTripValue plan v p) path 0 items
        return some (.arr restored)
      | none => return some (.arr items)
    | v => return some v

/-- The loop over the plan's properties. -/
def restoreProperties : List (String × Plan) → List (String × Json) →
    List PathSegment → Except AdapterError (List (String × Json))
  | [], restored, _ => .ok restored
  | (key, childPlan) :: plans, restored, path =>
    match restored.lookup key with
    | none => restoreProperties plans restored path
    | some inner => do
      let restoredValue ← restoreRoundTripValue childPlan inner
        (path ++ [.key key])
      match restoredValue with
      | none => restoreProperties plans (Fields.remove restored key) path
      | some v =>
        restoreProperties plans (Fields.replace restored key v) path

end

def restoreToolInputPayload (plan : Plan) (payload : Json) :
    Except AdapterError (List (String × Json)) := do
  let restored ← restoreRoundTripValue text toolName plan payload []
  match restored with
  | some (.obj fields) => return fields
  | _ => return []

end Restore

end WeaveRuntime.ToolSchemas
