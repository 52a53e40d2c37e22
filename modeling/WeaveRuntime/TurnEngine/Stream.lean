/-
What one model stream builds up: the events of a model, and the state a
turn accumulates from them.

`_StreamAttemptState.observe` reads one event. It may raise, on a block
type it does not know, with the writes it made before in place; so it is
a `Method`. The ids `uuid4().hex` would give are arguments: one for the
block that is closed, one for a legacy tool call.

# What an event can do

Whatever an event is and however its observation ends, blocks and tool
calls are only appended, each new tool call with its block, and a message
that has stopped stays stopped (`Grows`, `observe_grows`).
-/
import WeaveRuntime.Tools.Execution
import WeaveRuntime.Messages.Model
import WeaveRuntime.Lib.Method

namespace WeaveRuntime.TurnEngine

open Lib Python Messages
open Jobs (Fields getField updateFields)
open Tools (stringKeys)

-- ========== the values

def textOr (left right : Option String) : Option String :=
  match left with
  | some text => if text = "" then right else some text
  | none => right

def stringValue : PyVal → Option String
  | .none => none
  | value => some (pyStr value)

def mappingValue : PyVal → Fields
  | .dict items => stringKeys items
  | _ => []

/-- `left or right` of mappings. -/
def fieldsOr (left right : Fields) : Fields :=
  if left = [] then right else left

mutual

/-- A value as the input of a tool call. -/
def payloadOf : PyVal → Payload
  | .none => .scalar .none
  | .bool b => .scalar (.bool b)
  | .int i => .scalar (.int i)
  | .float r => .scalar (.float r)
  | .str s => .scalar (.str s)
  | .other text => .scalar (.other text)
  | .list items => .list (payloadItems items)
  | .dict items => .mapping (payloadFields items)

def payloadItems : List PyVal → List Payload
  | [] => []
  | value :: items => payloadOf value :: payloadItems items

def payloadFields : List (PyKey × PyVal) → List (PyKey × Payload)
  | [] => []
  | (key, value) :: items => (key, payloadOf value) :: payloadFields items

end

/-- What is raised, by its text. -/
structure ValueError where
  message : String
  deriving DecidableEq, Repr

inductive ContentBlockType where
  | text | toolUse | toolResult | thinking | redactedThinking
  deriving DecidableEq, Repr

def ContentBlockType.ofText (text : String) :
    Except ValueError ContentBlockType :=
  if text = "text" then .ok .text
  else if text = "tool_use" then .ok .toolUse
  else if text = "tool_result" then .ok .toolResult
  else if text = "thinking" then .ok .thinking
  else if text = "redacted_thinking" then .ok .redactedThinking
  else .error ⟨Python.reprStr text ++ " is not a valid ContentBlockType"⟩

def coerceBlockType : PyVal → Except ValueError ContentBlockType
  | .none => .ok .text
  | value => ContentBlockType.ofText (pyStr value)

structure ToolCall where
  callId : String
  toolName : String
  toolInput : Payload

def toolUseId? : ContentBlock → Option String
  | .toolUse id _ _ => some id
  | _ => none

/-- The tool uses of a message, in order. -/
def toolUseIds (blocks : List ContentBlock) : List String :=
  blocks.filterMap toolUseId?

def toolCallOf : ContentBlock → Option ToolCall
  | .toolUse id name input =>
    some { callId := id, toolName := name, toolInput := input }
  | _ => none

def toolCallsFromMessage (blocks : List ContentBlock) : List ToolCall :=
  blocks.filterMap toolCallOf

theorem toolUseIds_eq (blocks : List ContentBlock) :
    toolUseIds blocks = (toolCallsFromMessage blocks).map (·.callId) := by
  unfold toolUseIds toolCallsFromMessage
  rw [List.map_filterMap]
  congr 1
  funext block
  cases block with
  | toolUse id name input => rfl
  | _ => rfl

-- ========== the events

inductive ModelStreamEventType where
  | messageStart | contentBlockStart | contentBlockDelta | contentBlockStop
  | contentDelta | toolCall | messageStop | error
  deriving DecidableEq, Repr

structure ModelTerminalMetadata where
  stopReason : Option String := none
  usage : Fields := []
  requestId : Option String := none
  error : Option String := none
  abortReason : Option String := none
  metadata : Fields := []

structure ModelStreamEvent where
  eventType : ModelStreamEventType
  payload : Fields := []
  blockId : Option String := none
  blockType : Option String := none
  terminal : Option ModelTerminalMetadata := none

namespace ModelStreamEvent

def get (event : ModelStreamEvent) (key : String) : PyVal :=
  getField event.payload key

def text (event : ModelStreamEvent) (key : String) : Option String :=
  stringValue (event.get key)

/-- `_coerce_block_type(event.block_type or payload.get("block_type") or
payload.get("type"))`. -/
def coercedBlockType (event : ModelStreamEvent) :
    Except ValueError ContentBlockType :=
  coerceBlockType
    (pyOr (match event.blockType with
      | some text => .str text
      | none => .none)
      (pyOr (event.get "block_type") (event.get "type")))

def blockText (event : ModelStreamEvent) : String :=
  (textOr (event.text "text") (textOr (event.text "delta")
    (textOr (event.text "thinking") (textOr (event.text "data")
      (some ""))))).getD ""

/-- The tool name a start or a delta of a block carries. -/
def toolName (event : ModelStreamEvent) : Option String :=
  textOr (event.text "tool_name") (event.text "name")

def toolInput (event : ModelStreamEvent) : Fields :=
  fieldsOr (mappingValue (event.get "tool_input"))
    (mappingValue (event.get "input"))

end ModelStreamEvent

-- =========== the state

structure PendingBlock where
  blockType : ContentBlockType
  blockId : Option String := none
  text : String := ""
  toolName : Option String := none
  toolInput : Fields := []

def PendingBlock.toBlock (block : PendingBlock) (uuid : String) :
    Except ValueError ContentBlock :=
  match block.blockType with
  | .text => .ok (.text block.text)
  | .thinking => .ok (.thinking block.text none)
  | .redactedThinking =>
    .ok (.redactedThinking
      (if block.text = "" then none else some block.text))
  | .toolUse =>
    .ok (.toolUse ((textOr block.blockId (some uuid)).getD uuid)
      ((textOr block.toolName (some "")).getD "")
      (.mapping (payloadFields block.toolInput)))
  | .toolResult =>
    .error ⟨"Unsupported content block type: "
      ++ "<ContentBlockType.TOOL_RESULT: 'tool_result'>"⟩

def PendingBlock.extend (pending : PendingBlock)
    (event : ModelStreamEvent) : PendingBlock :=
  match pending.blockType with
  | .text | .thinking | .redactedThinking =>
    { pending with text := pending.text ++ event.blockText }
  | .toolUse =>
    { pending with
      toolName := event.toolName.or pending.toolName
      toolInput := updateFields pending.toolInput event.toolInput }
  | .toolResult => pending

structure StreamAttemptState where
  blocks : List ContentBlock := []
  pendingBlock : Option PendingBlock := none
  toolCalls : List ToolCall := []
  newToolCalls : List ToolCall := []
  messageStopped : Bool := false
  pendingToolUseClosedAtMessageStop : Bool := false
  requestId : Option String := none
  usage : Fields := []
  stopReason : Option String := none
  error : Option String := none
  abortReason : Option String := none
  metadata : Fields := []

namespace StreamAttemptState

abbrev Op := Method StreamAttemptState ValueError

/-- A block is closed: it joins the blocks, with its tool call if it is a
tool use. -/
def appendBlock (s : StreamAttemptState) (block : ContentBlock) :
    StreamAttemptState :=
  { s with
    blocks := s.blocks ++ [block]
    toolCalls := s.toolCalls ++ (toolCallOf block).toList
    newToolCalls := s.newToolCalls ++ (toolCallOf block).toList }

def finalizePendingBlock (uuid : String) : Op Unit := do
  match ← Method.read (·.pendingBlock) with
  | none => pure ()
  | some pending =>
    let block ← Method.lift (pending.toBlock uuid)
    Method.write fun s => { s.appendBlock block with pendingBlock := none }

/-- The part of `_merge_terminal_fields` that reads `event.terminal`. -/
def mergeTerminal (s : StreamAttemptState) :
    Option ModelTerminalMetadata → StreamAttemptState
  | none => s
  | some terminal =>
    { s with
      requestId := textOr terminal.requestId s.requestId
      usage := fieldsOr terminal.usage s.usage
      stopReason := textOr terminal.stopReason s.stopReason
      error := textOr terminal.error s.error
      abortReason := textOr terminal.abortReason s.abortReason
      metadata := updateFields s.metadata terminal.metadata }

def mergeTerminalFields (s : StreamAttemptState)
    (event : ModelStreamEvent) : StreamAttemptState :=
  let merged := s.mergeTerminal event.terminal
  { merged with
    requestId := (event.text "request_id").or merged.requestId
    usage := fieldsOr (mappingValue (event.get "usage")) merged.usage
    stopReason := (event.text "stop_reason").or merged.stopReason
    error := (event.text "error").or merged.error
    abortReason := (event.text "abort_reason").or merged.abortReason
    metadata := updateFields merged.metadata
      (mappingValue (event.get "metadata")) }

def startBlock (event : ModelStreamEvent) (uuid : String) : Op Unit := do
  finalizePendingBlock uuid
  let blockType ← Method.lift event.coercedBlockType
  Method.write fun s => { s with
    pendingBlock := some
      { blockType := blockType
        blockId := textOr event.blockId (textOr (event.text "block_id")
          (textOr (event.text "tool_use_id") (event.text "call_id")))
        text := event.blockText
        toolName := event.toolName
        toolInput := event.toolInput } }

def applyBlockDelta (event : ModelStreamEvent) (uuid : String) :
    Op Unit := do
  let blockType ← Method.lift event.coercedBlockType
  match ← Method.read (·.pendingBlock) with
  | none => startBlock event uuid
  | some pending =>
    if pending.blockType ≠ blockType then startBlock event uuid
    else Method.write fun s => { s with
      pendingBlock := some (pending.extend event) }

def appendLegacyText (event : ModelStreamEvent) (uuid : String) :
    Op Unit := do
  let text := (textOr (event.text "text") (some "")).getD ""
  if text = "" then pure ()
  else
    match ← Method.read (·.pendingBlock) with
    | some pending =>
      if pending.blockType = .text then
        Method.write fun s => { s with
          pendingBlock := some
            { pending with text := pending.text ++ text } }
      else do
        finalizePendingBlock uuid
        Method.write fun s => { s with
          pendingBlock := some { blockType := .text, text := text } }
    | none =>
      Method.write fun s => { s with
        pendingBlock := some { blockType := .text, text := text } }

def appendLegacyToolCall (event : ModelStreamEvent)
    (uuid uuid' : String) : Op Unit := do
  finalizePendingBlock uuid
  match event.text "tool_name" with
  | none => pure ()
  | some toolName =>
    let callId := (textOr (event.text "call_id")
      (textOr (event.text "tool_use_id") (some uuid'))).getD uuid'
    Method.write fun s => s.appendBlock
      (.toolUse callId toolName (.mapping (payloadFields event.toolInput)))

def pendingToolUse (s : StreamAttemptState) : Bool :=
  s.pendingBlock.any (·.blockType = .toolUse)

def observe (event : ModelStreamEvent) (uuid uuid' : String) : Op Unit := do
  Method.write (·.mergeTerminalFields event)
  match event.eventType with
  | .messageStart => pure ()
  | .contentBlockStart => startBlock event uuid
  | .contentBlockDelta => applyBlockDelta event uuid
  | .contentBlockStop => finalizePendingBlock uuid
  | .contentDelta => appendLegacyText event uuid
  | .toolCall => appendLegacyToolCall event uuid uuid'
  | .messageStop => do
    Method.write fun s => { s with
      messageStopped := true
      pendingToolUseClosedAtMessageStop :=
        s.pendingToolUseClosedAtMessageStop || s.pendingToolUse }
    finalizePendingBlock uuid
  | .error =>
    Method.write fun s => { s with
      error := textOr (event.text "error")
        (textOr s.error (some "Model stream error")) }

def drained (s : StreamAttemptState) : StreamAttemptState :=
  { s with newToolCalls := [] }

-- ==== what an event can do

/-- What observing events can do: append blocks and their tool calls. -/
structure Grows (s t : StreamAttemptState) : Prop where
  appended : ∃ bs, t.blocks = s.blocks ++ bs
    ∧ t.toolCalls = s.toolCalls ++ toolCallsFromMessage bs
    ∧ t.newToolCalls = s.newToolCalls ++ toolCallsFromMessage bs
  stopped : s.messageStopped = true → t.messageStopped = true
  closed : s.pendingToolUseClosedAtMessageStop = true →
    t.pendingToolUseClosedAtMessageStop = true

theorem grows_refl (s : StreamAttemptState) : Grows s s :=
  ⟨⟨[], by simp [toolCallsFromMessage]⟩, id, id⟩

theorem grows_trans (s t u : StreamAttemptState) (hst : Grows s t)
    (htu : Grows t u) : Grows s u := by
  obtain ⟨bs, hb, hc, hn⟩ := hst.appended
  obtain ⟨bs', hb', hc', hn'⟩ := htu.appended
  refine ⟨⟨bs ++ bs', ?_, ?_, ?_⟩, fun h => htu.stopped (hst.stopped h),
    fun h => htu.closed (hst.closed h)⟩
  · rw [hb', hb, List.append_assoc]
  · rw [hc', hc, List.append_assoc, toolCallsFromMessage,
      toolCallsFromMessage, toolCallsFromMessage, List.filterMap_append]
  · rw [hn', hn, List.append_assoc, toolCallsFromMessage,
      toolCallsFromMessage, toolCallsFromMessage, List.filterMap_append]

theorem grows_of_same {s t : StreamAttemptState} (hb : t.blocks = s.blocks)
    (hc : t.toolCalls = s.toolCalls) (hn : t.newToolCalls = s.newToolCalls)
    (hstop : t.messageStopped = s.messageStopped)
    (hclosed : t.pendingToolUseClosedAtMessageStop
      = s.pendingToolUseClosedAtMessageStop) : Grows s t :=
  ⟨⟨[], by simp [hb, hc, hn, toolCallsFromMessage]⟩,
    fun h => hstop.trans h, fun h => hclosed.trans h⟩

theorem grows_appendBlock (s : StreamAttemptState) (block : ContentBlock) :
    Grows s (s.appendBlock block) := by
  have hone : toolCallsFromMessage [block] = (toolCallOf block).toList := by
    cases h : toolCallOf block with
    | none => simp [toolCallsFromMessage, h]
    | some call => simp [toolCallsFromMessage, h]
  refine ⟨⟨[block], rfl, ?_, ?_⟩, id, id⟩
  · rw [hone]
    rfl
  · rw [hone]
    rfl

theorem grows_mergeTerminalFields (s : StreamAttemptState)
    (event : ModelStreamEvent) : Grows s (s.mergeTerminalFields event) := by
  have hterminal : Grows s (s.mergeTerminal event.terminal) := by
    cases event.terminal with
    | none => exact grows_refl s
    | some terminal => exact grows_of_same rfl rfl rfl rfl rfl
  exact grows_trans _ _ _ hterminal (grows_of_same rfl rfl rfl rfl rfl)

section Evolves

open Method

theorem finalizePendingBlock_grows (uuid : String) :
    Evolves Grows (finalizePendingBlock uuid) := by
  refine evolves_bind grows_trans (evolves_read grows_refl _) ?_
  intro pending
  cases pending with
  | none => exact evolves_pure grows_refl ()
  | some pending =>
    refine evolves_bind grows_trans (evolves_lift grows_refl _) ?_
    intro block
    refine evolves_write fun s => ?_
    exact grows_trans _ _ _ (grows_appendBlock s block)
      (grows_of_same rfl rfl rfl rfl rfl)

theorem pending_grows (f : StreamAttemptState → Option PendingBlock) :
    Evolves Grows
      (Method.write fun s => { s with pendingBlock := f s } : Op Unit) :=
  evolves_write fun _ => grows_of_same rfl rfl rfl rfl rfl

variable (event : ModelStreamEvent)

theorem startBlock_grows (uuid : String) :
    Evolves Grows (startBlock event uuid) := by
  refine evolves_bind grows_trans (finalizePendingBlock_grows uuid) ?_
  intro _
  refine evolves_bind grows_trans (evolves_lift grows_refl _) ?_
  intro blockType
  exact pending_grows _

theorem applyBlockDelta_grows (uuid : String) :
    Evolves Grows (applyBlockDelta event uuid) := by
  refine evolves_bind grows_trans (evolves_lift grows_refl _) ?_
  intro blockType
  refine evolves_bind grows_trans (evolves_read grows_refl _) ?_
  intro pending
  cases pending with
  | none => exact startBlock_grows event uuid
  | some pending =>
    by_cases h : pending.blockType ≠ blockType
    · simp only [if_pos h]
      exact startBlock_grows event uuid
    · simp only [if_neg h]
      exact pending_grows _

theorem appendLegacyText_grows (uuid : String) :
    Evolves Grows (appendLegacyText event uuid) := by
  unfold appendLegacyText
  by_cases htext : (textOr (event.text "text") (some "")).getD "" = ""
  · simp only [if_pos htext]
    exact evolves_pure grows_refl ()
  · simp only [if_neg htext]
    refine evolves_bind grows_trans (evolves_read grows_refl _) ?_
    intro pending
    cases pending with
    | none => exact pending_grows _
    | some pending =>
      by_cases h : pending.blockType = .text
      · simp only [if_pos h]
        exact pending_grows _
      · simp only [if_neg h]
        refine evolves_bind grows_trans
          (finalizePendingBlock_grows uuid) ?_
        intro _
        exact pending_grows _

theorem appendLegacyToolCall_grows (uuid uuid' : String) :
    Evolves Grows (appendLegacyToolCall event uuid uuid') := by
  refine evolves_bind grows_trans (finalizePendingBlock_grows uuid) ?_
  intro _
  cases event.text "tool_name" with
  | none => exact evolves_pure grows_refl ()
  | some toolName =>
    exact evolves_write fun s => grows_appendBlock s _

theorem observe_grows (uuid uuid' : String) :
    Evolves Grows (observe event uuid uuid') := by
  refine evolves_bind grows_trans
    (evolves_write fun s => grows_mergeTerminalFields s event) ?_
  intro _
  cases event.eventType with
  | messageStart => exact evolves_pure grows_refl ()
  | contentBlockStart => exact startBlock_grows event uuid
  | contentBlockDelta => exact applyBlockDelta_grows event uuid
  | contentBlockStop => exact finalizePendingBlock_grows uuid
  | contentDelta => exact appendLegacyText_grows event uuid
  | toolCall => exact appendLegacyToolCall_grows event uuid uuid'
  | messageStop =>
    refine evolves_bind grows_trans (evolves_write fun s => ?_)
      fun _ => finalizePendingBlock_grows uuid
    refine ⟨⟨[], by simp [toolCallsFromMessage]⟩, fun _ => rfl, ?_⟩
    intro h
    simp [h]
  | error =>
    exact evolves_write fun s => grows_of_same rfl rfl rfl rfl rfl

end Evolves

def Matched (s : StreamAttemptState) : Prop :=
  s.toolCalls = toolCallsFromMessage s.blocks

theorem Matched.grows {s t : StreamAttemptState} (hs : s.Matched)
    (h : Grows s t) : t.Matched := by
  obtain ⟨bs, hb, hc, -⟩ := h.appended
  unfold Matched at hs ⊢
  rw [hc, hb, hs, toolCallsFromMessage, toolCallsFromMessage,
    toolCallsFromMessage, List.filterMap_append]

-- ===== the stream ends

def synthesizedStopReason (abortReason : Option String)
    (messageStopped : Bool) (error : Option String) : String :=
  if abortReason.isSome then "interrupted"
  else if error.isSome then "error"
  else if messageStopped then "message_stop"
  else "incomplete"

/-- `_discard_pending_block`: the block it gives, where it does not
raise. -/
def discardedPending (s : StreamAttemptState) (uuid : String) :
    Except ValueError (List ContentBlock) :=
  match s.pendingBlock with
  | none => .ok []
  | some pending => (pending.toBlock uuid).map fun block => [block]

/-- What `finalize` returns. -/
structure Finalized where
  committedBlocks : List ContentBlock := []
  discardedBlocks : List ContentBlock := []
  toolCalls : List ToolCall := []
  terminal : ModelTerminalMetadata := {}

/-- The terminal metadata `finalize` returns. -/
def terminalMetadata (s : StreamAttemptState)
    (abortReason : Option String) : ModelTerminalMetadata :=
  { stopReason := textOr s.stopReason
      (some (synthesizedStopReason abortReason s.messageStopped s.error))
    usage := s.usage
    requestId := s.requestId
    error := s.error
    abortReason := textOr s.abortReason abortReason
    metadata := s.metadata }

/-- Whether `finalize` commits what was observed. -/
def commits (s : StreamAttemptState) (preserveObservedToolUses : Bool) :
    Bool :=
  s.messageStopped || (preserveObservedToolUses && !s.toolCalls.isEmpty)

def finalize (s : StreamAttemptState) (abortReason : Option String)
    (preserveObservedToolUses : Bool) (uuid : String) :
    Except ValueError Finalized := do
  if s.messageStopped then
    return { committedBlocks := s.blocks, toolCalls := s.toolCalls
             terminal := s.terminalMetadata abortReason }
  else if preserveObservedToolUses && !s.toolCalls.isEmpty then
    let discarded ← s.discardedPending uuid
    return { committedBlocks := s.blocks, discardedBlocks := discarded
             toolCalls := s.toolCalls
             terminal := s.terminalMetadata abortReason }
  else
    let discarded ← s.discardedPending uuid
    return { discardedBlocks := s.blocks ++ discarded
             terminal := s.terminalMetadata abortReason }

end StreamAttemptState

end WeaveRuntime.TurnEngine
