/-
What the orchestrator makes of a tool's output, and when that refers to an
artifact.

`toolResultMessage` puts the results of a batch of tool calls into one
message, each with an entry of its metadata. `coerceReplayPayload` and
`toolResultMetadataEntry` look for the key `artifact_ref` in the output:
where the tool has used it, the result surfaces as a reference to a spilled
artifact, in its content and in its entry.

# How it is read

The key at the top of a value is what a resolution goes by
(`topReference`), the key anywhere in it is what a projection pins by
(`containsArtifactRef`). An output without the key gives an entry without
it (`toolResultMetadataEntry_topReference`,
`toolResultMetadataEntry_contains`).
-/
import WeaveRuntime.Jobs.Fields
import WeaveRuntime.ContextWindow.Passes
import WeaveRuntime.Tools.Execution

namespace WeaveRuntime.ContextWindow

open Lib Python Messages
open Tools
open Jobs (Fields setField getField lookupKey_setField)
open Compaction (dict texts)

-- ======== the payloads

mutual

/-- A Python value as the content of a block. -/
def payloadOf : PyVal → Payload
  | .none => .scalar .none
  | .bool b => .scalar (.bool b)
  | .int i => .scalar (.int i)
  | .float repr => .scalar (.float repr)
  | .str s => .scalar (.str s)
  | .other text => .scalar (.other text)
  | .list items => .list (payloadOfItems items)
  | .dict items => .mapping (payloadOfFields items)

def payloadOfItems : List PyVal → List Payload
  | [] => []
  | v :: vs => payloadOf v :: payloadOfItems vs

def payloadOfFields : List (PyKey × PyVal) → List (PyKey × Payload)
  | [] => []
  | (k, v) :: fs => (k, payloadOf v) :: payloadOfFields fs

end

-- ==== tool result messages

inductive ToolResultSummaryStatus where
  | success | denied | cancelled | error
  deriving DecidableEq

def ToolResultSummaryStatus.value : ToolResultSummaryStatus → String
  | .success => "success"
  | .denied => "denied"
  | .cancelled => "cancelled"
  | .error => "error"

structure ToolResultSummary where
  title : String
  summary : String
  status : ToolResultSummaryStatus
  detailLines : List String

structure SurfacedOutcome extends ToolOutcome where
  result : ToolCallResult
  resultSummary : Option ToolResultSummary
  surfaced : toToolOutcome.resultBlock = toolResultBlock result

def statusValue : ToolCallStatus → String
  | .success => "success"
  | .error => "error"
  | .cancelled => "cancelled"
  | .denied => "denied"

def ToolResultSummary.serialize (s : ToolResultSummary) : PyVal :=
  .dict (dict [("title", .str s.title), ("summary", .str s.summary),
    ("status", .str s.status.value), ("detail_lines", texts s.detailLines)])

/-- What an entry takes over from the content of the block. -/
def contentEntry (entry : Fields) : PyVal → Fields
  | .dict content =>
    let referring := match lookupKey content "artifact_ref" with
      | none => entry
      | some .none => entry
      | some artifactRef =>
        setField (setField entry (.str "artifact_ref")
          (.str (pyStr artifactRef)))
          (.str "externalized")
          (.bool ((lookupKey content "externalized").getD
            (.bool true)).truthy)
    match lookupKey content "summary" with
    | none => referring
    | some .none => referring
    | some summary =>
      setField referring (.str "summary_text") (.str (pyStr summary))
  | _ => entry

def toolResultMetadataEntry (o : SurfacedOutcome) : Fields :=
  let entry := dict [("tool_use_id", .str o.resolvedCall.toolUseId),
    ("tool_name", .str o.resolvedCall.displayName),
    ("status", .str (statusValue o.status))]
  let entry := match o.resultSummary with
    | none => entry
    | some summary =>
      setField entry (.str "result_summary") summary.serialize
  contentEntry entry o.resultBlock.content

def SurfacedOutcome.block (o : SurfacedOutcome) : ContentBlock :=
  .toolResult o.resultBlock.toolUseId (payloadOf o.resultBlock.content)
    o.resultBlock.isError

def toolResultMessage (messageId : String) (createdAt : Datetime)
    (observedPaths : List String) (outcomes : List SurfacedOutcome) :
    Option RuntimeMessage :=
  let ordered := outcomes.insertionSort fun a b =>
    a.replayIndex ≤ b.replayIndex
  if ordered.isEmpty then none
  else some {
    messageId := messageId
    role := .user
    content := ordered.map SurfacedOutcome.block
    createdAt := createdAt
    attachments := []
    metadata := dict (("tool_results",
        .list (ordered.map fun o => .dict (toolResultMetadataEntry o)))
      :: if observedPaths.isEmpty then []
        else [("observed_paths", texts observedPaths)]) }

-- ========== references

/-- The value under `artifact_ref` at the top of a value, unless `None`. -/
def topReference : PyVal → Bool
  | .dict items =>
    match lookupKey items "artifact_ref" with
    | none => false
    | some .none => false
    | some _ => true
  | _ => false

def SurfacedOutcome.refers (o : SurfacedOutcome) : Bool :=
  topReference (toolResultBlock o.result).content

/-- A result surfaces with such a reference somewhere in it. -/
def SurfacedOutcome.mentions (o : SurfacedOutcome) : Bool :=
  containsArtifactRef (toolResultBlock o.result).content

theorem topReference_of_contains {v : PyVal}
    (h : containsArtifactRef v = false) : topReference v = false := by
  cases v with
  | dict items =>
    unfold containsArtifactRef at h
    exact (Bool.or_eq_false_iff.1 h).1
  | _ => rfl

theorem payloadOfFields_find? (items : List (PyKey × PyVal)) (key : PyKey) :
    (payloadOfFields items).find? (fun e => e.1 = key)
      = (items.find? fun e => e.1 = key).map fun e => (e.1, payloadOf e.2) := by
  induction items with
  | nil => rfl
  | cons e items ih =>
    unfold payloadOfFields
    by_cases h : e.1 = key
    · rw [List.find?_cons_of_pos (by simpa using h),
        List.find?_cons_of_pos (by simpa using h)]
      rfl
    · rw [List.find?_cons_of_neg (by simpa using h),
        List.find?_cons_of_neg (by simpa using h), ih]

theorem payloadField_payloadOf (v : PyVal) :
    (payloadField (payloadOf v) "artifact_ref").isSome = topReference v := by
  cases v with
  | dict items =>
    have hfind := payloadOfFields_find? items (.str "artifact_ref")
    simp only [payloadOf, payloadField, topReference, lookupKey, hfind]
    cases items.find? fun e => e.1 = .str "artifact_ref" with
    | none => rfl
    | some e =>
      obtain ⟨key, value⟩ := e
      cases value with
      | _ => rfl
  | _ => rfl

mutual

theorem payloadContains_payloadOf : ∀ v : PyVal,
    payloadContainsArtifactRef (payloadOf v) = containsArtifactRef v
  | .dict items => by
    have htop := payloadField_payloadOf (.dict items)
    unfold payloadOf at htop ⊢
    unfold payloadContainsArtifactRef containsArtifactRef
    rw [htop, payloadContains_fields items]
    rfl
  | .list items => by
    unfold payloadOf payloadContainsArtifactRef containsArtifactRef
    exact payloadContains_items items
  | .none | .bool _ | .int _ | .float _ | .str _ | .other _ => rfl

theorem payloadContains_items : ∀ items : List PyVal,
    payloadContainsArtifactRefItems (payloadOfItems items)
      = containsArtifactRefItems items
  | [] => rfl
  | v :: vs => by
    unfold payloadOfItems payloadContainsArtifactRefItems
      containsArtifactRefItems
    rw [payloadContains_payloadOf v, payloadContains_items vs]

theorem payloadContains_fields : ∀ items : List (PyKey × PyVal),
    payloadContainsArtifactRefFields (payloadOfFields items)
      = containsArtifactRefFields items
  | [] => rfl
  | (k, v) :: fs => by
    unfold payloadOfFields payloadContainsArtifactRefFields
      containsArtifactRefFields
    rw [payloadContains_payloadOf v, payloadContains_fields fs]

end

-- ============= entries

def entryId (entry : Fields) : String := pyStr (getField entry "tool_use_id")

theorem entryId_setField (entry : Fields) {key : String} (value : PyVal)
    (h : key ≠ "tool_use_id") :
    entryId (setField entry (.str key) value) = entryId entry := by
  unfold entryId getField
  rw [lookupKey_setField, if_neg h]

-- ==== the first message

theorem entryId_contentEntry (entry : Fields) (content : PyVal) :
    entryId (contentEntry entry content) = entryId entry := by
  have hsummary : ∀ (referring : Fields) (items : List (PyKey × PyVal)),
      entryId (match lookupKey items "summary" with
        | none => referring
        | some .none => referring
        | some summary =>
          setField referring (.str "summary_text") (.str (pyStr summary)))
        = entryId referring := by
    intro referring items
    split
    · rfl
    · rfl
    · exact entryId_setField _ _ (by decide)
  cases content with
  | dict items =>
    unfold contentEntry
    dsimp only
    rw [hsummary]
    split
    · rfl
    · rfl
    · rw [entryId_setField _ _ (by decide), entryId_setField _ _ (by decide)]
  | _ => rfl

theorem entryId_toolResultMetadataEntry (o : SurfacedOutcome) :
    entryId (toolResultMetadataEntry o) = o.resolvedCall.toolUseId := by
  unfold toolResultMetadataEntry
  dsimp only
  rw [entryId_contentEntry]
  split
  · rfl
  · rw [entryId_setField _ _ (by decide)]
    rfl

theorem topReference_setField (fields : Fields) {key : String}
    (value : PyVal) (h : key ≠ "artifact_ref") :
    topReference (.dict (setField fields (.str key) value))
      = topReference (.dict fields) := by
  simp only [topReference, lookupKey_setField, if_neg h]

theorem containsFields_setField {fields : Fields} {key : String}
    {value : PyVal} (hfields : containsArtifactRefFields fields = false)
    (hvalue : containsArtifactRef value = false) :
    containsArtifactRefFields (setField fields (.str key) value) = false := by
  induction fields with
  | nil =>
    show (containsArtifactRef value || containsArtifactRefFields []) = false
    rw [hvalue]
    rfl
  | cons e fields ih =>
    obtain ⟨k, v⟩ := e
    obtain ⟨hv, hrest⟩ := Bool.or_eq_false_iff.1 hfields
    unfold setField
    split
    · show (containsArtifactRef value || containsArtifactRefFields fields)
        = false
      rw [hvalue, hrest]
      rfl
    · show (containsArtifactRef v
        || containsArtifactRefFields (setField fields _ value)) = false
      rw [hv, ih hrest]
      rfl

theorem containsArtifactRef_dict (fields : Fields) :
    containsArtifactRef (.dict fields)
      = (topReference (.dict fields) || containsArtifactRefFields fields) :=
  rfl

theorem containsArtifactRef_setField {fields : Fields} {key : String}
    {value : PyVal} (h : key ≠ "artifact_ref")
    (hfields : containsArtifactRef (.dict fields) = false)
    (hvalue : containsArtifactRef value = false) :
    containsArtifactRef (.dict (setField fields (.str key) value)) = false := by
  rw [containsArtifactRef_dict, Bool.or_eq_false_iff] at hfields ⊢
  rw [topReference_setField _ _ h]
  exact ⟨hfields.1, containsFields_setField hfields.2 hvalue⟩

theorem contentEntry_of_topReference {content : PyVal}
    (h : topReference content = false) (entry : Fields) :
    contentEntry entry content = entry
      ∨ ∃ text, contentEntry entry content
        = setField entry (.str "summary_text") (.str text) := by
  cases content with
  | dict items =>
    have hreferring : contentEntry entry (.dict items)
        = match lookupKey items "summary" with
          | none => entry
          | some .none => entry
          | some summary =>
            setField entry (.str "summary_text") (.str (pyStr summary)) := by
      cases hlook : lookupKey items "artifact_ref" with
      | none => simp only [contentEntry, hlook]
      | some ref =>
        cases ref with
        | none => simp only [contentEntry, hlook]
        | _ => simp [topReference, hlook] at h
    rw [hreferring]
    split
    · exact Or.inl rfl
    · exact Or.inl rfl
    · exact Or.inr ⟨_, rfl⟩
  | _ => exact Or.inl rfl

theorem containsItems_texts (items : List String) :
    containsArtifactRef (texts items) = false := by
  show containsArtifactRefItems (items.map .str) = false
  induction items with
  | nil => rfl
  | cons s items ih => exact ih

theorem containsArtifactRef_serialize (s : ToolResultSummary) :
    containsArtifactRef s.serialize = false := by
  have hlines := containsItems_texts s.detailLines
  unfold ToolResultSummary.serialize
  rw [containsArtifactRef_dict, Bool.or_eq_false_iff]
  refine ⟨rfl, ?_⟩
  show (containsArtifactRef (texts s.detailLines) || false) = false
  rw [hlines]
  rfl

theorem toolResultMetadataEntry_eq (o : SurfacedOutcome) :
    ∃ entry, toolResultMetadataEntry o
        = contentEntry entry o.resultBlock.content
      ∧ containsArtifactRef (.dict entry) = false := by
  refine ⟨_, rfl, ?_⟩
  split
  · rfl
  · exact containsArtifactRef_setField (by decide) rfl
      (containsArtifactRef_serialize _)

theorem toolResultMetadataEntry_topReference {o : SurfacedOutcome}
    (h : o.refers = false) :
    topReference (.dict (toolResultMetadataEntry o)) = false := by
  obtain ⟨entry, heq, hentry⟩ := toolResultMetadataEntry_eq o
  have htop := topReference_of_contains hentry
  unfold SurfacedOutcome.refers at h
  rw [← o.surfaced] at h
  rw [heq]
  rcases contentEntry_of_topReference h entry with hsame | ⟨text, hset⟩
  · rw [hsame]
    exact htop
  · rw [hset, topReference_setField _ _ (by decide)]
    exact htop

theorem toolResultMetadataEntry_contains {o : SurfacedOutcome}
    (h : o.mentions = false) :
    containsArtifactRef (.dict (toolResultMetadataEntry o)) = false := by
  obtain ⟨entry, heq, hentry⟩ := toolResultMetadataEntry_eq o
  unfold SurfacedOutcome.mentions at h
  rw [← o.surfaced] at h
  rw [heq]
  rcases contentEntry_of_topReference (topReference_of_contains h) entry with
    hsame | ⟨text, hset⟩
  · rw [hsame]
    exact hentry
  · rw [hset]
    exact containsArtifactRef_setField (by decide) hentry rfl

theorem textField_of_topReference {fields : Fields}
    (h : topReference (.dict fields) = false) :
    textField fields "artifact_ref" = none := by
  unfold textField getField
  cases hlook : lookupKey fields "artifact_ref" with
  | none => rfl
  | some ref =>
    cases ref with
    | none => rfl
    | _ => simp [topReference, hlook] at h

end WeaveRuntime.ContextWindow
