/-
The passes of `DefaultContextControlPlane.prepare` over the messages of a
turn.

Three passes come before the compaction. `resolveSpilloverReferences`
replaces a tool result whose artifact is gone, `applyContextWindowPlan`
summarises and externalises tool results, and both repair the pairing of
tool calls and results once they have rewritten anything.
`applyProjectionPass` leaves messages out of the active view.

The transcript store is a parameter with a state; where a call of it
raises, so does the pass, which then gives nothing. The plan is what the
hook returned. Of an effect its kind is kept, and the diagnostics are left
out.
-/
import WeaveRuntime.Compaction.Manager
import WeaveRuntime.Messages.Protocol

namespace WeaveRuntime.ContextWindow

open Lib Python Messages
open Jobs (Fields setField getField)
open Transcripts (ArtifactManifestEntry strPayload record)
open Compaction (dict optionalVal)

-- ======= tool metadata

/-- `_coerce_optional_string(mapping, key)`. -/
def textField (fields : Fields) (key : String) : Option String :=
  match getField fields key with
  | .str s => stripOrNone s
  | _ => none

/-- `list(message.metadata.get("tool_results", ()))`; nothing where the
value cannot be iterated. -/
def toolResultEntries (metadata : Fields) : Option (List PyVal) :=
  match lookupKey metadata "tool_results" with
  | none => some []
  | some (.list items) => some items
  | some (.dict items) => some (items.map fun e => .str e.1.text)
  | some (.str s) => some (s.toList.map fun c => .str c.toString)
  | some _ => none

/-- The entries of the message's metadata by their tool call. -/
def metadataByToolUse (entries : List PyVal) : Dict String Fields :=
  entries.foldl (fun table entry =>
    match entry with
    | .dict fields =>
      table.insert (pyStr (getField fields "tool_use_id")) fields
    | _ => table) .empty

/-- `[metadata_by_tool_use[tool_use_id] for tool_use_id in ordered_ids]`:
the ids of the entries first, those that came later after them. -/
def orderedToolResults (entries : List PyVal) (table : Dict String Fields) :
    PyVal :=
  let ids := entries.filterMap fun entry =>
    match entry with
    | .dict fields => some (pyStr (getField fields "tool_use_id"))
    | _ => none
  let later := table.keys.filter fun id => id ∉ ids
  .list ((ids ++ later).filterMap fun id => (table.get? id).map .dict)

def entryOf (table : Dict String Fields) (toolUseId : String) : Fields :=
  (table.get? toolUseId).getD (dict [("tool_use_id", .str toolUseId)])

def rewriteMessage (m : RuntimeMessage) (blocks : List ContentBlock)
    (entries : List PyVal) (table : Dict String Fields) : RuntimeMessage :=
  { m with
    content := blocks
    metadata := setField m.metadata (.str "tool_results")
      (orderedToolResults entries table) }

-- ====== text of values

mutual

def payloadRepr : Payload → String
  | .scalar .none => "None"
  | .scalar (.bool b) => if b then "True" else "False"
  | .scalar (.int i) => toString i
  | .scalar (.float repr) => repr
  | .scalar (.str s) => Python.reprStr s
  | .scalar (.other text) => text
  | .list items => "[" ++ ", ".intercalate (payloadReprItems items) ++ "]"
  | .tuple [item] => "(" ++ payloadRepr item ++ ",)"
  | .tuple items => "(" ++ ", ".intercalate (payloadReprItems items) ++ ")"
  | .mapping items =>
    "\x7b" ++ ", ".intercalate (payloadReprFields items) ++ "\x7d"

def payloadReprItems : List Payload → List String
  | [] => []
  | p :: ps => payloadRepr p :: payloadReprItems ps

def payloadReprFields : List (PyKey × Payload) → List String
  | [] => []
  | (k, p) :: fs => (k.repr ++ ": " ++ payloadRepr p) :: payloadReprFields fs

end

/-- `str(value)`. -/
def payloadStr : Payload → String
  | .scalar (.str s) => s
  | p => payloadRepr p

/-- `content.get(key)` of a mapping, unless it is `None`. -/
def payloadField (content : Payload) (key : String) : Option Payload :=
  match content with
  | .mapping items =>
    match items.find? fun e => e.1 = .str key with
    | some (_, .scalar .none) => none
    | some (_, value) => some value
    | none => none
  | _ => none

-- ============= effects

inductive EffectKind where
  | contextWindowDecision | projection | compaction | spillover
  deriving DecidableEq

/-- The transcript store, at one session. -/
structure ArtifactStore (σ : Type) where
  loadArtifact : σ → String → Option (Option ArtifactManifestEntry)
  persistArtifact : σ → Payload → Fields →
    Option (ArtifactManifestEntry × σ)

-- ========== resolution

/-- The loop variables of a rewriting pass, for one message. -/
structure Rewriting where
  table : Dict String Fields
  blocks : List ContentBlock
  effects : List EffectKind

def missingArtifactPlaceholder (content : Payload) (entry : Fields)
    (artifactRef : String) : String :=
  match textField entry "summary_text" with
  | some text => text
  | none =>
    match (payloadField content "summary").bind fun summary =>
        stripOrNone (payloadStr summary) with
    | some text => text
    | none => "[missing spillover artifact: " ++ artifactRef ++ "]"

/-- The artifact a tool result refers to, and its entry with the
reference. -/
def artifactReference (entry : Fields) (content : Payload) :
    Fields × Option String :=
  match textField entry "artifact_ref" with
  | some artifactRef => (entry, some artifactRef)
  | none =>
    match payloadField content "artifact_ref" with
    | some raw =>
      (setField entry (.str "artifact_ref") (.str (payloadStr raw)),
        some (payloadStr raw))
    | none => (entry, none)

section Resolution

variable {σ : Type} (store : ArtifactStore σ) (state : σ)

def resolveBlock (w : Rewriting) : ContentBlock → Option Rewriting
  | .toolResult toolUseId content isError =>
    let (entry, found) :=
      artifactReference (entryOf w.table toolUseId) content
    let kept := { w with
      table := w.table.insert toolUseId entry
      blocks := w.blocks ++ [.toolResult toolUseId content isError] }
    match found with
    | none => some kept
    | some artifactRef => do
      match ← store.loadArtifact state artifactRef with
      | some _ => return kept
      | none =>
        let degraded := setField (setField (setField entry
          (.str "artifact_missing") (.bool true))
          (.str "degraded") (.bool true))
          (.str "degraded_reason") (.str "artifact_unavailable")
        return {
          table := w.table.insert toolUseId degraded
          blocks := w.blocks ++ [.toolResult toolUseId (strPayload
            (missingArtifactPlaceholder content degraded artifactRef))
            isError]
          effects := w.effects ++ [.spillover] }
  | block => some { w with blocks := w.blocks ++ [block] }

def resolveMessage (m : RuntimeMessage) :
    Option (RuntimeMessage × List EffectKind) := do
  let entries ← toolResultEntries m.metadata
  let w ← m.content.foldlM (resolveBlock store state)
    ⟨metadataByToolUse entries, [], []⟩
  if w.effects.isEmpty then return (m, [])
  else return (rewriteMessage m w.blocks entries w.table, w.effects)

end Resolution

/-- The messages of the loop of `resolve_spillover_references`. -/
def resolvedMessages {σ : Type} (store : Option (ArtifactStore σ)) (state : σ)
    (messages : List RuntimeMessage) :
    Option (List RuntimeMessage × List EffectKind) :=
  match store with
  | none => some (messages, [])
  | some store => do
    let resolved ← messages.mapM (resolveMessage store state)
    return (resolved.map Prod.fst, (resolved.map Prod.snd).flatten)

def resolveSpilloverReferences {σ : Type} (store : Option (ArtifactStore σ))
    (state : σ) (messages : List RuntimeMessage) :
    Option (List RuntimeMessage × List EffectKind) := do
  let (resolved, effects) ← resolvedMessages store state messages
  if effects.isEmpty then return (messages, [])
  else return (ensureToolResultPairing resolved, effects)

-- =============== plans

inductive ContextWindowAction where
  | inline | summarize | externalize
  deriving DecidableEq

def ContextWindowAction.value : ContextWindowAction → String
  | .inline => "inline"
  | .summarize => "summarize"
  | .externalize => "externalize"

structure ContextWindowDecision where
  candidateId : String
  action : ContextWindowAction
  summaryText : Option String
  reason : Option String
  artifactMetadata : Fields

structure ContextWindowPlan where
  decisions : List ContextWindowDecision
  policyTag : Option String

def candidateId (messageId : String) (blockIndex : Nat)
    (toolUseId : String) : String :=
  messageId ++ (":" ++ (toString blockIndex ++ (":" ++ toolUseId)))

def messageCandidates (m : RuntimeMessage) : List String :=
  m.content.zipIdx.filterMap fun slot =>
    match slot.1 with
    | .toolResult toolUseId _ _ =>
      some (candidateId m.messageId slot.2 toolUseId)
    | _ => none

def collectContextWindowCandidates (messages : List RuntimeMessage) :
    List String :=
  messages.flatMap messageCandidates

/-- A text that is there and not empty. -/
def nonempty (text : Option String) : Bool :=
  text.any fun s => s ≠ ""

/-- Whether a decision is taken up, after those before it. -/
def admissible (candidates : List String) (hasStore : Bool)
    (decisions : Dict String ContextWindowDecision)
    (d : ContextWindowDecision) : Bool :=
  candidates.elem d.candidateId && !decisions.contains d.candidateId
    && !(d.action = .summarize && !nonempty d.summaryText)
    && !(d.action = .externalize && !hasStore)

def decisionsById (candidates : List String) (hasStore : Bool)
    (plan : ContextWindowPlan) : Dict String ContextWindowDecision :=
  plan.decisions.foldl (fun decisions d =>
    if admissible candidates hasStore decisions d then
      decisions.insert d.candidateId d
    else decisions) .empty

section Planning

variable {σ : Type} (store : Option (ArtifactStore σ))
  (policyTag : Option String)

def reuseOrPersistArtifact (state : σ) (toolUseId : String)
    (payload : Payload) (entry : Fields) (d : ContextWindowDecision) :
    Option (Option ArtifactManifestEntry × σ) :=
  match store with
  | none => some (none, state)
  | some store => do
    let existing ← match textField entry "artifact_ref" with
      | none => some none
      | some artifactRef => store.loadArtifact state artifactRef
    match existing with
    | some found => return (some found, state)
    | none =>
      let metadata := dict [("tool_use_id", .str toolUseId),
        ("decision_action", .str d.action.value),
        ("decision_reason", optionalVal d.reason),
        ("policy_tag", optionalVal policyTag),
        ("summary_text", optionalVal d.summaryText),
        ("artifact_metadata", .dict d.artifactMetadata)]
      let (persisted, next) ← store.persistArtifact state payload metadata
      return (some persisted, next)

/-- The entry of a tool result with the decision and its artifact. -/
def decidedEntry (entry : Fields) (d : ContextWindowDecision) : Fields :=
  let reasoned := setField entry (.str "decision_reason") (optionalVal d.reason)
  match policyTag with
  | none => reasoned
  | some tag => setField reasoned (.str "policy_tag") (.str tag)

def artifactEntry (entry : Fields) : Option ArtifactManifestEntry → Fields
  | none => entry
  | some artifact =>
    setField (setField (setField entry
      (.str "artifact_ref") (.str artifact.artifactRef))
      (.str "artifact_digest") (.str artifact.digest))
      (.str "retention_class") (.str artifact.retentionClass)

def externalizedReplayPayload (artifactRef : String)
    (summaryText : Option String) : Payload :=
  record ([("artifact_ref", strPayload artifactRef),
    ("kind", strPayload "tool_result_spillover"),
    ("externalized", .scalar (.bool true))]
    ++ match summaryText with
      | none => []
      | some text => [("summary", strPayload text)])

/-- What a decision makes of a tool result: its content and its entry, and
the effects. -/
def decideResult (d : ContextWindowDecision)
    (artifact : Option ArtifactManifestEntry) (content : Payload)
    (entry : Fields) : Payload × Fields × List EffectKind :=
  match d.action, d.summaryText, artifact with
  | .summarize, some text, _ =>
    (strPayload text,
      setField (setField entry (.str "summarized") (.bool true))
        (.str "summary_text") (.str text),
      .contextWindowDecision ::
        if artifact.isSome then [.spillover] else [])
  | .externalize, summaryText, some artifact =>
    let externalized := setField entry (.str "externalized") (.bool true)
    let summarized := match summaryText with
      | none => externalized
      | some text => setField externalized (.str "summary_text") (.str text)
    let shown := if nonempty summaryText then summaryText
      else textField summarized "summary_text"
    (externalizedReplayPayload artifact.artifactRef shown, summarized,
      [.contextWindowDecision, .spillover])
  | _, _, _ => (content, entry, [])

def planBlock (decisions : Dict String ContextWindowDecision)
    (messageId : String) (acc : Rewriting × σ) (slot : ContentBlock × Nat) :
    Option (Rewriting × σ) :=
  let (w, state) := acc
  match slot.1 with
  | .toolResult toolUseId content isError =>
    match decisions.get? (candidateId messageId slot.2 toolUseId) with
    | none => some ({ w with blocks := w.blocks ++ [slot.1] }, state)
    | some d => do
      let entry := decidedEntry policyTag (entryOf w.table toolUseId) d
      let (artifact, next) ← reuseOrPersistArtifact store policyTag state
        toolUseId content entry d
      let (shown, noted, effects) :=
        decideResult d artifact content (artifactEntry entry artifact)
      return ({
        table := w.table.insert toolUseId noted
        blocks := w.blocks ++ [.toolResult toolUseId shown isError]
        effects := w.effects ++ effects }, next)
  | block => some ({ w with blocks := w.blocks ++ [block] }, state)

/-- One message of the loop. -/
def planMessage (decisions : Dict String ContextWindowDecision)
    (acc : List RuntimeMessage × List EffectKind × σ) (m : RuntimeMessage) :
    Option (List RuntimeMessage × List EffectKind × σ) := do
  let (updated, effects, state) := acc
  let entries ← toolResultEntries m.metadata
  let (w, next) ← m.content.zipIdx.foldlM
    (planBlock store policyTag decisions m.messageId)
    (⟨metadataByToolUse entries, [], []⟩, state)
  let rewritten :=
    if w.table.keys.isEmpty then { m with content := w.blocks }
    else rewriteMessage m w.blocks entries w.table
  return (updated ++ [rewritten], effects ++ w.effects, next)

end Planning

/-- The messages of the loop of `apply_context_window_plan`, where it has a
decision to apply. -/
def plannedMessages {σ : Type} (store : Option (ArtifactStore σ)) (state : σ)
    (plan : ContextWindowPlan) (messages : List RuntimeMessage) :
    Option (List RuntimeMessage × List EffectKind × σ) :=
  messages.foldlM
    (planMessage store plan.policyTag
      (decisionsById (collectContextWindowCandidates messages) store.isSome
        plan))
    ([], [], state)

def applyContextWindowPlan {σ : Type} (store : Option (ArtifactStore σ))
    (state : σ) (plan : ContextWindowPlan) (messages : List RuntimeMessage) :
    Option (List RuntimeMessage × List EffectKind × σ) := do
  let decisions := decisionsById (collectContextWindowCandidates messages)
    store.isSome plan
  if decisions.keys.isEmpty then return (messages, [], state)
  else
    let (updated, effects, next) ← plannedMessages store state plan messages
    return (ensureToolResultPairing updated, effects, next)

-- ========== projection

mutual

def containsArtifactRef : PyVal → Bool
  | .dict items =>
    (match lookupKey items "artifact_ref" with
      | none => false
      | some .none => false
      | some _ => true) || containsArtifactRefFields items
  | .list items => containsArtifactRefItems items
  | _ => false

def containsArtifactRefItems : List PyVal → Bool
  | [] => false
  | v :: vs => containsArtifactRef v || containsArtifactRefItems vs

def containsArtifactRefFields : List (PyKey × PyVal) → Bool
  | [] => false
  | (_, v) :: fs => containsArtifactRef v || containsArtifactRefFields fs

end

mutual

/-- `_mapping_contains_artifact_ref`, of the content of a tool result. -/
def payloadContainsArtifactRef : Payload → Bool
  | .mapping items =>
    (payloadField (.mapping items) "artifact_ref").isSome
      || payloadContainsArtifactRefFields items
  | .list items => payloadContainsArtifactRefItems items
  | .tuple items => payloadContainsArtifactRefItems items
  | .scalar _ => false

def payloadContainsArtifactRefItems : List Payload → Bool
  | [] => false
  | p :: ps => payloadContainsArtifactRef p || payloadContainsArtifactRefItems ps

def payloadContainsArtifactRefFields : List (PyKey × Payload) → Bool
  | [] => false
  | (_, p) :: fs =>
    payloadContainsArtifactRef p || payloadContainsArtifactRefFields fs

end

def blockRefersToArtifact : ContentBlock → Bool
  | .toolResult _ content _ => payloadContainsArtifactRef content
  | _ => false

def requiresProjectionPin (m : RuntimeMessage) : Bool :=
  !m.attachments.isEmpty
    || (getField m.metadata "compaction_summary").truthy
    || containsArtifactRef (.dict m.metadata)
    || m.content.any blockRefersToArtifact
    || ["compaction", "compaction_continuation", "artifact_ref",
        "continuation_blocked"].any
      fun key => (lookupKey m.metadata key).isSome

def assistantToolUseIds (messages : List RuntimeMessage) : List String :=
  (messages.filter fun m => m.role = .assistant).flatMap fun m =>
    m.content.filterMap fun block =>
      match block with
      | .toolUse toolUseId _ _ => some toolUseId
      | .toolResult toolUseId _ _ => some toolUseId
      | _ => none

def toolResultIds (messages : List RuntimeMessage) : List String :=
  (messages.filter fun m => m.role = .user).flatMap fun m =>
    m.content.filterMap fun block =>
      match block with
      | .toolResult toolUseId _ _ => some toolUseId
      | _ => none

def toolPairSignature (messages : List RuntimeMessage) : List String :=
  (assistantToolUseIds messages).filter fun id => id ∈ toolResultIds messages

def projectionInvariants (original projected : List RuntimeMessage) : Bool :=
  let projectedIds := projected.map RuntimeMessage.messageId
  let pairs := toolPairSignature original
  (original.takeWhile fun m => m.role = .system).all
      (fun m => m.messageId ∈ projectedIds)
    && (original.reverse.find? fun m => m.role = .user).all
      (fun m => m.messageId ∈ projectedIds)
    && (original.filter requiresProjectionPin).all
      (fun m => m.messageId ∈ projectedIds)
    && (toolPairSignature projected).all (fun id => id ∈ pairs)
    && pairs.all fun id =>
      (id ∈ toolResultIds projected : Bool)
        == (id ∈ assistantToolUseIds projected : Bool)

def latestUserIndex (messages : List RuntimeMessage) : Nat :=
  ((messages.zipIdx.filter fun entry => entry.1.role = .user).getLast?.map
    Prod.snd).getD (messages.length - 1)

def selectedMessages (messages : List RuntimeMessage) (limit : Int) :
    List RuntimeMessage :=
  let nonSystemStart :=
    (messages.takeWhile fun m => m.role = .system).length
  let tailStart := max (nonSystemStart : Int) (messages.length - limit)
  (messages.zipIdx.filter fun entry =>
    entry.1.role = .system || requiresProjectionPin entry.1
      || entry.2 = latestUserIndex messages
      || decide (tailStart ≤ (entry.2 : Int))).map Prod.fst

def applyProjectionPass (maxActiveMessages : Option Int)
    (messages : List RuntimeMessage) : List RuntimeMessage :=
  match maxActiveMessages with
  | none => messages
  | some limit =>
    if (messages.length : Int) ≤ limit then messages
    else if messages.all (fun m => m.role = .system) then messages
    else
      let projected :=
        ensureToolResultPairing (selectedMessages messages limit)
      if projectionInvariants messages projected then projected
      else messages

end WeaveRuntime.ContextWindow
