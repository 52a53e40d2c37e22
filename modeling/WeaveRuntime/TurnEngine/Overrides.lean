/-
Request overrides: what a hook, a skill or the recovery policy asks the
next model request to change.

An override is stored in the private context in two shapes, the request
override and the skill override older readers look for, and is coerced
when it is read back: an override with no field set is none at all.

`metadata["sources"]` is a field of its own (`sources`), a list of texts
as every writer in the runtime leaves it; `metadata` is the rest.
-/
import WeaveRuntime.TurnEngine.Stream

namespace WeaveRuntime.TurnEngine

open Lib Python Messages
open Jobs (Fields getField setField updateFields)

-- ========== the values

def isNone : PyVal → Bool
  | .none => true
  | _ => false

def keepSet (left right : PyVal) : PyVal := if isNone left then right else left

def coerceText (value : Option String) : Option String :=
  match value with
  | some text => if pyStrip text = "" then none else some (pyStrip text)
  | none => none

def setDefault (fields : Fields) (key : String) (value : PyVal) : Fields :=
  if (lookupKey fields key).isSome then fields
  else setField fields (.str key) value

structure RequestOverrideState where
  requestedModel : Option String := none
  requestedEffort : PyVal := .none
  requestedModelRoute : Option String := none
  invocationModeOverride : PyVal := .none
  maxOutputTokensOverride : Option Int := none
  source : Option String := none
  fieldSources : List (String × String) := []
  resumable : Bool := false
  sources : List String := []
  metadata : Fields := []

structure SkillRequestOverrideState where
  requestedModel : Option String := none
  requestedEffort : PyVal := .none
  sourceSkill : Option String := none

namespace RequestOverrideState

def truthy (o : RequestOverrideState) : Bool :=
  o.requestedModel.isSome || !isNone o.requestedEffort
    || o.requestedModelRoute.isSome || !isNone o.invocationModeOverride
    || o.maxOutputTokensOverride.isSome

def orNone (o : RequestOverrideState) : Option RequestOverrideState :=
  if o.truthy then some o else none

theorem orNone_eq_some {o r : RequestOverrideState} :
    o.orNone = some r ↔ o.truthy = true ∧ o = r := by
  unfold orNone
  by_cases h : o.truthy = true
  · simp [h]
  · simp [h]

/-- The names of the fields an override can set, with whether it does. -/
def fields (o : RequestOverrideState) : List (String × Bool) :=
  [("requested_model", o.requestedModel.isSome),
   ("requested_effort", !isNone o.requestedEffort),
   ("requested_model_route", o.requestedModelRoute.isSome),
   ("invocation_mode_override", !isNone o.invocationModeOverride),
   ("max_output_tokens_override", o.maxOutputTokensOverride.isSome)]

def coerceStored (o : RequestOverrideState) : Option RequestOverrideState :=
  let state : RequestOverrideState :=
    { o with
      requestedModel := coerceText o.requestedModel
      requestedModelRoute := coerceText o.requestedModelRoute
      source := coerceText o.source }
  match state.source with
  | some source =>
    if state.sources = [] then { state with sources := [source] }.orNone
    else state.orNone
  | none => state.orNone

def coerce : Option RequestOverrideState → Option RequestOverrideState
  | some o => o.orNone
  | none => none

def fieldSource (current incoming : RequestOverrideState)
    (field : String × Bool) : Option String :=
  if field.2 then
    textOr (incoming.fieldSources.lookup field.1) incoming.source
  else textOr (current.fieldSources.lookup field.1) current.source

/-- The sources of a merge, stripped and without repetition. -/
def mergedSources (current incoming : RequestOverrideState) : List String :=
  ((current.sources ++ incoming.sources).map some
      ++ [current.source, incoming.source]).foldl
    (fun seen candidate =>
      match coerceText candidate with
      | some text => if seen.contains text then seen else seen ++ [text]
      | none => seen) []

/-- The metadata of a merge. A skill's source leaves its name. -/
def mergedMetadata (current incoming : RequestOverrideState) : Fields :=
  let metadata := updateFields current.metadata incoming.metadata
  match incoming.source with
  | some source =>
    if source.startsWith "skill:" then
      setDefault metadata "source_skill"
        (.str (String.ofList (source.toList.drop 6)))
    else metadata
  | none => metadata

def combine (current incoming : RequestOverrideState) :
    RequestOverrideState where
  requestedModel := incoming.requestedModel.or current.requestedModel
  requestedEffort := keepSet incoming.requestedEffort current.requestedEffort
  requestedModelRoute :=
    incoming.requestedModelRoute.or current.requestedModelRoute
  invocationModeOverride :=
    keepSet incoming.invocationModeOverride current.invocationModeOverride
  maxOutputTokensOverride :=
    incoming.maxOutputTokensOverride.or current.maxOutputTokensOverride
  source := textOr incoming.source current.source
  fieldSources := incoming.fields.filterMap fun field =>
    (fieldSource current incoming field).map (field.1, ·)
  resumable := incoming.resumable || current.resumable
  sources := mergedSources current incoming
  metadata := mergedMetadata current incoming

def merge (current incoming : Option RequestOverrideState) :
    Option RequestOverrideState :=
  match incoming, current with
  | none, _ => current
  | some o, none => some o
  | some o, some c => (combine c o).orNone

@[simp] theorem merge_none (current : Option RequestOverrideState) :
    merge current none = current := rfl

@[simp] theorem coerce_none : coerce none = none := rfl

/-- `serialize_resumable_request_override`, up to the serialization. -/
def resumableOnly : Option RequestOverrideState → Option RequestOverrideState
  | some o => if o.resumable then some o else none
  | none => none

end RequestOverrideState

namespace SkillRequestOverrideState

def truthy (o : SkillRequestOverrideState) : Bool :=
  o.requestedModel.isSome || !isNone o.requestedEffort || o.sourceSkill.isSome

def orNone (o : SkillRequestOverrideState) :
    Option SkillRequestOverrideState :=
  if o.truthy then some o else none

def coerceStored (o : SkillRequestOverrideState) :
    Option SkillRequestOverrideState :=
  orNone
    { o with
      requestedModel := coerceText o.requestedModel
      sourceSkill := coerceText o.sourceSkill }

def toRequest (o : SkillRequestOverrideState) :
    Option RequestOverrideState :=
  if o.truthy then
    let source := (textOr o.sourceSkill (some "skill")).getD "skill"
    RequestOverrideState.orNone
      { requestedModel := o.requestedModel
        requestedEffort := o.requestedEffort
        source := some source
        fieldSources :=
          (if o.requestedModel.isSome then [("requested_model", source)]
            else [])
          ++ (if isNone o.requestedEffort then []
            else [("requested_effort", source)])
        sources := [source]
        metadata := [(.str "source_kind", .str "skill")] }
  else none

def ofRequest (o : RequestOverrideState) :
    Option SkillRequestOverrideState :=
  let skill := match getField o.metadata "source_skill" with
    | .str text => coerceText (some text)
    | _ => none
  orNone
    { requestedModel := o.requestedModel
      requestedEffort := o.requestedEffort
      sourceSkill := textOr skill o.source }

end SkillRequestOverrideState

-- ==== the private context

/-- What the turn loop itself keeps in the private context's extensions. -/
structure PrivateContext where
  requestOverride : Option RequestOverrideState := none
  skillRequestOverride : Option SkillRequestOverrideState := none
  forceCompaction : Bool := false

namespace PrivateContext

def pendingOverride (c : PrivateContext) : Option RequestOverrideState :=
  (c.requestOverride.bind RequestOverrideState.coerceStored).or
    ((c.skillRequestOverride.bind SkillRequestOverrideState.coerceStored).bind
      SkillRequestOverrideState.toRequest)

def applyOverride (c : PrivateContext) (pending : RequestOverrideState) :
    PrivateContext :=
  match RequestOverrideState.merge c.pendingOverride (some pending) with
  | none => { c with requestOverride := none, skillRequestOverride := none }
  | some merged =>
    { c with
      requestOverride := some merged
      skillRequestOverride := SkillRequestOverrideState.ofRequest merged }

def clearOverride (c : PrivateContext) : PrivateContext :=
  { c with requestOverride := none, skillRequestOverride := none }

def clearTransientFlags (c : PrivateContext) : PrivateContext :=
  { c with forceCompaction := false }

end PrivateContext

end WeaveRuntime.TurnEngine
