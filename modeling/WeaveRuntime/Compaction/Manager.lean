/-
Compaction of a turn's context.

`prepareTurn` runs the ordered strategies over the messages of a turn; the
default one, `thresholdSummary`, replaces the messages between the leading
system messages and the recent tail by one summary of them, itself a
system message.

The text of a tool result that is no string is what `json.dumps` makes of
it (`dumps`, a parameter), and there is none where it raises: then the
call raises too, and `prepareTurn` gives nothing. The ids `uuid4()` draws
are inputs.
-/
import WeaveRuntime.Transcripts.Codec

namespace WeaveRuntime.Compaction

open Python Messages
open Jobs (Fields)
open Transcripts (roleValue)

-- ================ text

/-- `text.split()`, the word read so far reversed. -/
def splitWords : List Char → List Char → List String
  | [], [] => []
  | word, [] => [String.ofList word.reverse]
  | [], c :: cs =>
    if isPySpace c then splitWords [] cs else splitWords [c] cs
  | d :: word, c :: cs =>
    if isPySpace c then
      String.ofList (d :: word).reverse :: splitWords [] cs
    else splitWords (c :: d :: word) cs

def pyJoin (sep : String) : List String → String
  | [] => ""
  | [item] => item
  | item :: items => item ++ (sep ++ pyJoin sep items)

def pyRstrip (text : String) : String :=
  String.ofList (text.toList.reverse.dropWhile isPySpace).reverse

section Text

variable (dumps : Payload → Option String)

/-- The text a block adds, nothing where `json.dumps` raises. -/
def blockText : ContentBlock → Option String
  | .text text => some text
  | .toolResult _ (.scalar (.str s)) _ => some s
  | .toolResult _ (.scalar .none) _ => some ""
  | .toolResult _ content _ => dumps content
  | .thinking thinking _ => some thinking
  | .redactedThinking (some data) => some data
  | .redactedThinking none => some ""
  | .toolUse _ _ _ => some ""

def contentBlocksToText (blocks : List ContentBlock) : Option String := do
  let parts ← blocks.mapM (blockText dumps)
  return String.join parts

def messageText (m : RuntimeMessage) : Option String :=
  contentBlocksToText dumps m.content

def messageSize (m : RuntimeMessage) : Option Nat := do
  let text ← messageText dumps m
  return text.length
    + (m.attachments.map fun a => a.name.length + a.path.length).foldl
        (· + ·) 0

end Text

-- ==== policy, pressure

structure CompactionPolicy where
  enabled : Bool
  force : Bool
  maxMessageCount : Option Int
  maxCharacters : Option Int
  keepRecentMessages : Int
  summaryLineLimit : Int
  summaryLineWidth : Int

structure ContextPressure where
  messageCount : Nat
  characterCount : Nat
  maxMessageCount : Option Int
  maxCharacters : Option Int
  messageLimitExceeded : Bool
  characterLimitExceeded : Bool
  triggered : Bool
  deriving DecidableEq

def exceeds (count : Nat) : Option Int → Bool
  | none => false
  | some limit => decide (limit < count)

def evaluateContextPressure (dumps : Payload → Option String)
    (messages : List RuntimeMessage) (policy : CompactionPolicy) :
    Option ContextPressure := do
  let sizes ← messages.mapM (messageSize dumps)
  let characterCount := sizes.foldl (· + ·) 0
  let messageLimitExceeded := exceeds messages.length policy.maxMessageCount
  let characterLimitExceeded := exceeds characterCount policy.maxCharacters
  return {
    messageCount := messages.length
    characterCount, messageLimitExceeded, characterLimitExceeded
    maxMessageCount := policy.maxMessageCount
    maxCharacters := policy.maxCharacters
    triggered := policy.force || messageLimitExceeded
      || characterLimitExceeded }

-- ============= results

structure CompactionBoundary where
  boundaryId : String
  startIndex : Nat
  endIndex : Nat
  sourceMessageIds : List String
  preservedMessageIds : List String
  messageCountBefore : Nat
  messageCountAfter : Nat
  trigger : String
  metadata : Fields

structure CompactionSummary where
  summaryId : String
  text : String
  sourceMessageIds : List String
  messageCount : Nat
  metadata : Fields

structure CompactionContinuation where
  mode : String
  summaryId : String
  resumeMessageId : Option String
  resumable : Bool
  metadata : Fields

structure CompactionStepResult where
  strategyName : String
  messages : List RuntimeMessage
  fragments : List String
  summary : CompactionSummary
  boundary : CompactionBoundary
  continuation : CompactionContinuation
  metadata : Fields

structure CompactionResult where
  messages : List RuntimeMessage
  policy : CompactionPolicy
  pressure : ContextPressure
  steps : List CompactionStepResult

def CompactionResult.applied (r : CompactionResult) : Bool :=
  !r.steps.isEmpty

def CompactionResult.boundary (r : CompactionResult) :
    Option CompactionBoundary :=
  r.steps.getLast?.map CompactionStepResult.boundary

-- ======= serialization

/-- A dictionary with text keys. -/
def dict (fields : List (String × PyVal)) : Fields :=
  fields.map fun e => (.str e.1, e.2)

def texts (items : List String) : PyVal := .list (items.map .str)

def optionalVal : Option String → PyVal
  | none => .none
  | some s => .str s

def CompactionBoundary.serialize (b : CompactionBoundary) : PyVal :=
  .dict (dict [("boundary_id", .str b.boundaryId),
    ("start_index", .int b.startIndex), ("end_index", .int b.endIndex),
    ("source_message_ids", texts b.sourceMessageIds),
    ("preserved_message_ids", texts b.preservedMessageIds),
    ("message_count_before", .int b.messageCountBefore),
    ("message_count_after", .int b.messageCountAfter),
    ("trigger", .str b.trigger), ("metadata", .dict b.metadata)])

def CompactionSummary.serialize (s : CompactionSummary) : PyVal :=
  .dict (dict [("summary_id", .str s.summaryId), ("text", .str s.text),
    ("source_message_ids", texts s.sourceMessageIds),
    ("message_count", .int s.messageCount), ("metadata", .dict s.metadata)])

def CompactionContinuation.serialize (c : CompactionContinuation) : PyVal :=
  .dict (dict [("mode", .str c.mode), ("summary_id", .str c.summaryId),
    ("resume_message_id", optionalVal c.resumeMessageId),
    ("resumable", .bool c.resumable), ("metadata", .dict c.metadata)])

-- ========= the summary

/-- The leading system messages, and the rest. -/
def splitPinnedPrefix (messages : List RuntimeMessage) :
    List RuntimeMessage × List RuntimeMessage :=
  (messages.takeWhile fun m => m.role = .system,
    messages.dropWhile fun m => m.role = .system)

def toolUseLabel : ContentBlock → Option String
  | .toolUse _ name _ => some ("tool:" ++ name)
  | _ => none

def toolResultLabel : ContentBlock → Option String
  | .toolResult toolUseId _ _ => some ("tool_result:" ++ toolUseId)
  | _ => none

def summarizeMessage (dumps : Payload → Option String) (width : Int)
    (m : RuntimeMessage) : Option String := do
  let stripped := pyStrip (← messageText dumps m)
  let toolUses := m.content.filterMap toolUseLabel
  let toolResults := m.content.filterMap toolResultLabel
  let named :=
    if stripped = "" then pyJoin ", " (toolUses ++ toolResults)
    else stripped
  let text := if named = "" then "(non-text content)" else named
  let normalized := pyJoin " " (splitWords [] text.toList)
  let shown :=
    if width < normalized.length then
      pyRstrip (String.ofList (normalized.toList.take (width - 3).toNat))
        ++ "..."
    else normalized
  return "- " ++ (roleValue m.role ++ (": " ++ shown))

def summaryLines (dumps : Payload → Option String) (policy : CompactionPolicy)
    (total written : Nat) : List RuntimeMessage → Option (List String)
  | [] => some []
  | m :: ms => do
    let line ← summarizeMessage dumps policy.summaryLineWidth m
    if policy.summaryLineLimit ≤ written + 1 then
      return line :: if written + 1 < total then
        ["- ... " ++ toString (total - (written + 1))
          ++ " earlier message(s) omitted"] else []
    else
      return line :: (← summaryLines dumps policy total (written + 1) ms)

def summarizeMessages (dumps : Payload → Option String)
    (policy : CompactionPolicy) (messages : List RuntimeMessage) :
    Option String := do
  let lines ← summaryLines dumps policy messages.length 0 messages
  return pyJoin "\n" (lines.filter (· ≠ ""))

def triggerName (policy : CompactionPolicy) (pressure : ContextPressure) :
    String :=
  if policy.force then "forced"
  else if pressure.messageLimitExceeded || pressure.characterLimitExceeded
  then "context_pressure"
  else "policy"

-- ========== strategies

/-- A strategy: what it makes of the messages, under a policy, a pressure
and after earlier steps. It may raise, and it may leave the messages
alone. -/
abbrev Strategy := List RuntimeMessage → CompactionPolicy →
  ContextPressure → List CompactionStepResult →
  Option (Option CompactionStepResult)

/-- What `uuid4()` draws for a summary, and when it is made. -/
structure SummaryDraws where
  summaryId : String
  boundaryId : String
  now : Datetime

/-- The messages a compaction replaces: what is left of `remaining` before
the recent ones. -/
def compactCandidates (policy : CompactionPolicy)
    (remaining : List RuntimeMessage) : List RuntimeMessage :=
  remaining.take (remaining.length
    - min remaining.length policy.keepRecentMessages.toNat)

def preservedTail (policy : CompactionPolicy)
    (remaining : List RuntimeMessage) : List RuntimeMessage :=
  remaining.drop (remaining.length
    - min remaining.length policy.keepRecentMessages.toNat)

def summaryStep (draws : SummaryDraws) (trigger summaryText : String)
    (pinned candidates tail : List RuntimeMessage) : CompactionStepResult :=
  let boundary : CompactionBoundary := {
    boundaryId := draws.boundaryId
    startIndex := pinned.length
    endIndex := pinned.length + candidates.length
    sourceMessageIds := candidates.map RuntimeMessage.messageId
    preservedMessageIds := (pinned ++ tail).map RuntimeMessage.messageId
    messageCountBefore := pinned.length + candidates.length + tail.length
    messageCountAfter := pinned.length + tail.length + 1
    trigger := trigger
    metadata := dict [("strategy_name", .str "threshold_summary")] }
  let summary : CompactionSummary := {
    summaryId := draws.summaryId
    text := summaryText
    sourceMessageIds := candidates.map RuntimeMessage.messageId
    messageCount := candidates.length
    metadata := dict [("strategy_name", .str "threshold_summary"),
      ("trigger", .str trigger)] }
  let continuation : CompactionContinuation := {
    mode := "summary_replay"
    summaryId := draws.summaryId
    resumeMessageId := tail.getLast?.map RuntimeMessage.messageId
    resumable := true
    metadata := dict [("strategy_name", .str "threshold_summary"),
      ("preserved_message_ids", texts (tail.map RuntimeMessage.messageId))] }
  let summaryMessage : RuntimeMessage := {
    messageId := draws.summaryId
    role := .system
    content := [.text ("Compacted conversation summary:\n" ++ summaryText)]
    createdAt := draws.now
    attachments := []
    metadata := dict [("compaction_summary", .bool true),
      ("compaction", .dict (dict [("applied", .bool true),
        ("strategy_name", .str "threshold_summary"),
        ("trigger", .str trigger), ("summary", summary.serialize),
        ("boundary", boundary.serialize),
        ("continuation", continuation.serialize)]))] }
  { strategyName := "threshold_summary"
    messages := pinned ++ summaryMessage :: tail
    fragments := ["Compacted " ++ toString candidates.length
      ++ " message(s) into summary " ++ (draws.summaryId.take 8).toString
      ++ " via threshold_summary."]
    summary, boundary, continuation
    metadata := dict [("trigger", .str trigger)] }

def thresholdSummary (dumps : Payload → Option String)
    (draws : SummaryDraws) : Strategy :=
  fun messages policy pressure _ =>
    if !policy.enabled then some none
    else if !(policy.force || pressure.triggered) then some none
    else
      let (pinned, remaining) := splitPinnedPrefix messages
      let candidates := compactCandidates policy remaining
      if candidates.isEmpty then some none
      else do
        let summaryText ← summarizeMessages dumps policy candidates
        if summaryText = "" then return none
        else
          return some (summaryStep draws (triggerName policy pressure)
            summaryText pinned candidates (preservedTail policy remaining))

/-- The loop of `prepare_turn` over the strategies. -/
def runStrategies (dumps : Payload → Option String)
    (policy : CompactionPolicy) : List Strategy → List RuntimeMessage →
    ContextPressure → List CompactionStepResult →
    Option (List RuntimeMessage × List CompactionStepResult)
  | [], messages, _, steps => some (messages, steps)
  | strategy :: strategies, messages, pressure, steps => do
    match ← strategy messages policy pressure steps with
    | none => runStrategies dumps policy strategies messages pressure steps
    | some step =>
      let next ← evaluateContextPressure dumps step.messages policy
      runStrategies dumps policy strategies step.messages next
        (steps ++ [step])

def prepareTurn (dumps : Payload → Option String) (strategies : List Strategy)
    (policy : CompactionPolicy) (messages : List RuntimeMessage) :
    Option CompactionResult := do
  let initialPressure ← evaluateContextPressure dumps messages policy
  let (current, steps) ← runStrategies dumps policy strategies messages
    initialPressure []
  return {
    messages := current
    policy := policy
    pressure := initialPressure
    steps := steps }

end WeaveRuntime.Compaction
