/-
What the runtime sends to a model: `normalizeMessagesForApi` drops the
host's own messages and what is empty, merges neighbours of one role, and
repairs the pairing of tool calls and results.

# How it is read

Merging and dropping empty messages moves blocks between messages but
never past each other, so a transcript is compared by what its blocks
spread out to in order (`spread`). What a tool block means for the pairing
is its mark (`toolMark`), and `ensureToolResultPairing` is the repair of
`Lib/Pairing.lean` on those marks (`repairs_keepMark`).
-/
import WeaveRuntime.Lib.Dict
import WeaveRuntime.Lib.Pairing
import WeaveRuntime.Messages.Model

namespace WeaveRuntime.Messages

open Lib
open Lib.Pairing
open Python
open Jobs (updateFields)

-- ============== blocks

def appendText (normalized : List ContentBlock) (text : String) :
    List ContentBlock :=
  match normalized.getLast? with
  | some (.text before) => normalized.dropLast ++ [.text (before ++ text)]
  | _ => normalized ++ [.text text]

def normalizeBlock : ContentBlock → ContentBlock
  | .toolUse toolUseId name input =>
    .toolUse toolUseId (pyStrip name) (normalizePayload input)
  | .toolResult toolUseId content isError =>
    .toolResult toolUseId (normalizePayload content) isError
  | block => block

/-- One round of the loop of `_normalize_blocks`. -/
def appendBlock (normalized : List ContentBlock) :
    ContentBlock → List ContentBlock
  | .text text => if text = "" then normalized else appendText normalized text
  | .thinking thinking signature =>
    if thinking = "" then normalized
    else normalized ++ [.thinking thinking signature]
  | block => normalized ++ [normalizeBlock block]

def normalizeBlocks (blocks : List ContentBlock) : List ContentBlock :=
  blocks.foldl appendBlock []

def normalizeMessage (message : RuntimeMessage) : RuntimeMessage :=
  { message with content := normalizeBlocks message.content }

-- ============= merging

def canMergeMessages (left right : RuntimeMessage) : Bool :=
  left.role = right.role

def mergeMessages (left right : RuntimeMessage) : RuntimeMessage :=
  { left with
    content := left.content ++ right.content
    attachments := left.attachments ++ right.attachments
    metadata := updateFields left.metadata right.metadata }

def pushMessage (merged : List RuntimeMessage) (message : RuntimeMessage) :
    List RuntimeMessage :=
  match merged.getLast? with
  | some last =>
    if canMergeMessages last message then
      merged.dropLast ++ [mergeMessages last message]
    else merged ++ [message]
  | none => merged ++ [message]

-- ============= pairing

/-- The three collections of `ensure_tool_result_pairing`. -/
structure PairingState where
  pendingToolUses : Dict String (Nat × Nat)
  matchedToolUseIds : List String
  validResultPositions : List (Nat × Nat)

def PairingState.init : PairingState := ⟨.empty, [], []⟩

def PairingState.validAt (state : PairingState) (position : Nat × Nat) :
    Bool := position ∈ state.validResultPositions

/-- One block of the first loop. -/
def observeBlock (role : MessageRole) (position : Nat × Nat)
    (state : PairingState) : ContentBlock → PairingState
  | .toolUse toolUseId _ _ =>
    if role = .assistant then
      { state with
        pendingToolUses := state.pendingToolUses.insert toolUseId position }
    else state
  | .toolResult toolUseId _ _ =>
    if role = .user then
      if !state.pendingToolUses.contains toolUseId then state
      else if toolUseId ∈ state.matchedToolUseIds then state
      else { state with
        matchedToolUseIds := state.matchedToolUseIds ++ [toolUseId]
        validResultPositions := state.validResultPositions ++ [position] }
    else state
  | _ => state

/-- The first loop. -/
def observeMessages (messages : List RuntimeMessage) : PairingState :=
  messages.zipIdx.foldl (fun state entry =>
    entry.1.content.zipIdx.foldl (fun state slot =>
      observeBlock entry.1.role (entry.2, slot.2) state slot.1) state) .init

/-- Whether the second loop keeps a block. -/
def keepBlock (state : PairingState) (position : Nat × Nat) :
    ContentBlock → Bool
  | .toolUse toolUseId _ _ => toolUseId ∈ state.matchedToolUseIds
  | .toolResult _ _ _ => state.validAt position
  | _ => true

def repairedBlocks (state : PairingState) (entry : RuntimeMessage × Nat) :
    List ContentBlock :=
  (entry.1.content.zipIdx.filter fun slot =>
    keepBlock state (entry.2, slot.2) slot.1).map Prod.fst

/-- One message of the second loop; one without blocks is dropped. -/
def repairMessage (state : PairingState) (entry : RuntimeMessage × Nat) :
    Option RuntimeMessage :=
  if (repairedBlocks state entry).isEmpty then none
  else some { entry.1 with content := repairedBlocks state entry }

def ensureToolResultPairing (messages : List RuntimeMessage) :
    List RuntimeMessage :=
  messages.zipIdx.filterMap (repairMessage (observeMessages messages))

-- =========== normalize

def collectMessage (normalized : List RuntimeMessage)
    (message : RuntimeMessage) : List RuntimeMessage :=
  if !message.role.apiBound then normalized
  else if (normalizeMessage message).content.isEmpty then normalized
  else pushMessage normalized (normalizeMessage message)

def normalizeMessagesForApi (messages : List RuntimeMessage) :
    List RuntimeMessage :=
  (ensureToolResultPairing (messages.foldl collectMessage [])).foldl
    pushMessage []

end WeaveRuntime.Messages
