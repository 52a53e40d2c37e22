/-
The state of a research run.

The operations of a run are recorded in one object: what was searched,
fetched and found, what was rejected, and the evidence. `stop_reason`
reads the counters, the freshness outcomes, the provider events and the
number of sources in the evidence. The sources, the trace, conflicts and
gaps are for display and are left out, as are the fields of an evidence
entry that only say how good it is.

A result is a mapping as the tools return it: what is read of it is read
by `getField`, and its source and quality are of the shapes the tools
give them, so that an operation does not raise half way.
-/
import Mathlib.Data.List.Infix
import WeaveRuntime.Jobs.Model
import WeaveRuntime.Lib.System

namespace WeaveRuntime.WebResearch

open Jobs (Fields getField)
open Lib
open Python

-- ============== values

def identityValue (value : PyVal) : String :=
  pyStrip (pyStr (pyOr value (.str "")))

/-- `rstrip`. -/
def stripRight (cs : List Char) : List Char :=
  (cs.reverse.dropWhile isPySpace).reverse

def firstExcerpt (value : PyVal) : String :=
  let text := identityValue value
  if text.length ≤ 240 then text
  else String.ofList (stripRight (text.toList.take 237)) ++ "..."

/-- A mapping, if the value is one. -/
def mappingOf : PyVal → Option Fields
  | .dict fields => some fields
  | _ => none

def listOfMappings : PyVal → List Fields
  | .list items => items.filterMap mappingOf
  | _ => []

def sliceTo {α : Type} (limit : Int) (items : List α) : List α :=
  if limit < 0 then items.take (items.length - (-limit).toNat)
  else items.take limit.toNat

def stopReasonFromStatus (rawStatus : PyVal) : String :=
  let status := identityValue rawStatus
  if status ∈ ["sufficient_evidence", "partial_result", "budget_exhausted",
      "policy_blocked", "freshness_unsupported", "unresolved_conflict",
      "remaining_gaps"] then status
  else if status ∈ ["conflicting_evidence", "conflict", "conflicts"] then
    "unresolved_conflict"
  else if status ∈ ["needs_wider_scope", "gaps_remaining", "gap", "gaps"] then
    "remaining_gaps"
  else if status ∈ ["freshness_enforced", "freshness_satisfied"] then
    "sufficient_evidence"
  else if status = "provider_fallback" then "partial_result"
  else if status ∈ ["max_turns", "cancelled"] then "budget_exhausted"
  else "partial_result"

-- =============== state

/-- What the run was asked for. -/
structure LoopRequest where
  freshnessDays : Option Int
  freshnessRequired : Bool
  desiredSourceCount : Option Int
  searchBudget : Option Int
  fetchBudget : Option Int
  findBudget : Option Int

inductive BudgetKind where
  | search | fetch | find
  deriving DecidableEq

/-- `budget.get(budget_key)`. -/
def LoopRequest.budget (request : LoopRequest) : BudgetKind → Option Int
  | .search => request.searchBudget
  | .fetch => request.fetchBudget
  | .find => request.findBudget

def LoopRequest.desiredSources (request : LoopRequest) : Int :=
  match request.desiredSourceCount with
  | none => 1
  | some count => if count = 0 then 1 else count

/-- An evidence entry, as far as it is looked at again. -/
structure Evidence where
  url : String
  excerpt : String
  sourceHandle : PyVal
  pageHandle : PyVal

structure WebResearchLoopState where
  request : LoopRequest
  searchUsed : Nat := 0
  fetchUsed : Nat := 0
  findUsed : Nat := 0
  policyRejections : Nat := 0
  budgetRejections : Nat := 0
  operationFailures : Nat := 0
  evidence : List Evidence := []
  /-- the provider events, by their fallback -/
  providerFallbacks : List (Option Fields) := []
  freshnessOutcomes : List Fields := []

-- ============ evidence

/-- The entry `_add_evidence` makes of an item. -/
def evidenceOf (item : Fields) : Evidence where
  url := identityValue (getField item "url")
  excerpt := identityValue
    (pyOr (getField item "excerpt") (getField item "content"))
  sourceHandle := getField item "source_handle"
  pageHandle := getField item "page_handle"

def addEvidence (evidence : List Evidence) (item : Fields) :
    List Evidence :=
  let entry := evidenceOf item
  if entry.excerpt = "" ∧ entry.url = "" then evidence
  else if evidence.any fun existing =>
      existing.url = entry.url && existing.excerpt = entry.excerpt then
    evidence
  else evidence ++ [entry]

def Evidence.key (entry : Evidence) : String :=
  identityValue
    (pyOr (pyOr entry.sourceHandle entry.pageHandle) (.str entry.url))

/-- The set of the keys of `_inspected_source_count_locked`. -/
def countedKeys (evidence : List Evidence) : List String :=
  (evidence.map (·.key)).filter (· ≠ "")

def inspectedSourceCount (evidence : List Evidence) : Nat :=
  (countedKeys evidence).dedup.length

def fetchedItem (result : Fields) : Fields :=
  [(.str "url", getField result "url"),
    (.str "excerpt", pyOr (getField result "excerpt")
      (.str (firstExcerpt (getField result "content")))),
    (.str "content", getField result "content"),
    (.str "source_handle", getField result "source_handle"),
    (.str "page_handle", getField result "page_handle")]

/-- The item `record_snippet_evidence` makes of a search result. -/
def snippetItem (item : Fields) (url snippet : String) : Fields :=
  [(.str "url", .str url), (.str "excerpt", .str snippet),
    (.str "content", .str snippet),
    (.str "source_handle", getField item "source_handle"),
    (.str "page_handle", getField item "page_handle")]

/-- The URL and the snippet of a search result. -/
def snippetOf (item : Fields) : String × String :=
  (identityValue (getField item "url"),
    identityValue (pyOr (getField item "excerpt") (getField item "content")))

/-- The loop of `record_snippet_evidence`. -/
def promoteSnippets : List Evidence → List String → List Fields →
    List Evidence
  | evidence, _, [] => evidence
  | evidence, existingUrls, item :: items =>
    let (url, snippet) := snippetOf item
    if url = "" ∨ snippet = "" ∨ url ∈ existingUrls then
      promoteSnippets evidence existingUrls items
    else
      let added := addEvidence evidence (snippetItem item url snippet)
      promoteSnippets added
        (if evidence.length < added.length then url :: existingUrls
        else existingUrls) items

-- ========== operations

namespace WebResearchLoopState

def recordProviderAndFreshness (s : WebResearchLoopState) (result : Fields)
    (includeFreshness : Bool) : WebResearchLoopState :=
  { s with
    providerFallbacks := match getField result "provider" with
      | .dict _ =>
        s.providerFallbacks ++ [mappingOf (getField result
          "provider_fallback")]
      | _ => s.providerFallbacks
    freshnessOutcomes := match includeFreshness,
        getField result "freshness_scope" with
      | true, .dict scope => s.freshnessOutcomes ++ [scope]
      | _, _ => s.freshnessOutcomes }

def recordSearch (s : WebResearchLoopState) (result : Fields) :
    WebResearchLoopState := s.recordProviderAndFreshness result true

def recordFetch (s : WebResearchLoopState) (result : Fields) :
    WebResearchLoopState :=
  { s.recordProviderAndFreshness result false with
    evidence := addEvidence s.evidence (fetchedItem result) }

def recordFind (s : WebResearchLoopState) (result : Fields) :
    WebResearchLoopState :=
  { s.recordProviderAndFreshness result false with
    evidence :=
      (listOfMappings (getField result "matches")).foldl addEvidence
        s.evidence }

def recordSnippetEvidence (s : WebResearchLoopState)
    (results : List Fields) (limit : Int) : WebResearchLoopState :=
  { s with
    evidence := promoteSnippets s.evidence (s.evidence.map (·.url))
      (sliceTo limit results) }

def recordRejection (s : WebResearchLoopState) (error : String) :
    WebResearchLoopState :=
  if "budget exhausted".toList <:+: error.toList then
    { s with budgetRejections := s.budgetRejections + 1 }
  else { s with policyRejections := s.policyRejections + 1 }

def recordOperationFailure (s : WebResearchLoopState) :
    WebResearchLoopState :=
  { s with operationFailures := s.operationFailures + 1 }

/-- `getattr(self, used_attr)`. -/
def used (s : WebResearchLoopState) : BudgetKind → Nat
  | .search => s.searchUsed
  | .fetch => s.fetchUsed
  | .find => s.findUsed

/-- `setattr(self, used_attr, used)`. -/
def setUsed (s : WebResearchLoopState) (used : Nat) :
    BudgetKind → WebResearchLoopState
  | .search => { s with searchUsed := used }
  | .fetch => { s with fetchUsed := used }
  | .find => { s with findUsed := used }

/-- `reserve`; the error of an exhausted budget ends the call after it has
been counted. -/
def reserve (s : WebResearchLoopState) (kind : BudgetKind) :
    WebResearchLoopState :=
  match s.request.budget kind with
  | none => s
  | some budget =>
    if budget ≤ s.used kind then
      { s with budgetRejections := s.budgetRejections + 1 }
    else s.setUsed (s.used kind + 1) kind

def providerFallbackPayload (s : WebResearchLoopState) : Option Fields :=
  s.providerFallbacks.reverse.findSome? id

def freshnessSatisfied (s : WebResearchLoopState) : Bool :=
  s.freshnessOutcomes.any fun outcome =>
    match getField outcome "status" with
    | .str status => status = "enforced" || status = "satisfied"
    | _ => false

def fellBack (s : WebResearchLoopState) : Bool :=
  match s.providerFallbackPayload with
  | some fallback => !fallback.isEmpty && (getField fallback "used").truthy
      && s.request.freshnessRequired
  | none => false

/-- Freshness was asked for and required, and no outcome satisfies it. -/
def freshnessMissing (s : WebResearchLoopState) : Bool :=
  s.request.freshnessDays.isSome && s.request.freshnessRequired
    && !s.freshnessSatisfied

def stopReason (s : WebResearchLoopState) (childStatus : PyVal) : String :=
  if s.evidence.isEmpty then
    if s.policyRejections ≠ 0 then "policy_blocked"
    else if s.budgetRejections ≠ 0 then "budget_exhausted"
    else if s.freshnessMissing then "freshness_unsupported"
    else if s.operationFailures ≠ 0 then "partial_result"
    else if stopReasonFromStatus childStatus = "sufficient_evidence" then
      "partial_result"
    else stopReasonFromStatus childStatus
  else if s.freshnessMissing then "freshness_unsupported"
  else if s.fellBack then "freshness_unsupported"
  else if s.budgetRejections ≠ 0 ∨ s.operationFailures ≠ 0 then
    "partial_result"
  else if (inspectedSourceCount s.evidence : Int)
      < s.request.desiredSources then "partial_result"
  else "sufficient_evidence"

end WebResearchLoopState

/-- The operations of a run. -/
inductive LoopOperation where
  | reserve (kind : BudgetKind)
  | recordSearch (result : Fields)
  | recordFetch (result : Fields)
  | recordFind (result : Fields)
  | recordSnippetEvidence (results : List Fields) (limit : Int)
  | recordRejection (error : String)
  | recordOperationFailure

def loopStep (s : WebResearchLoopState) :
    LoopOperation → WebResearchLoopState
  | .reserve kind => s.reserve kind
  | .recordSearch result => s.recordSearch result
  | .recordFetch result => s.recordFetch result
  | .recordFind result => s.recordFind result
  | .recordSnippetEvidence results limit =>
    s.recordSnippetEvidence results limit
  | .recordRejection error => s.recordRejection error
  | .recordOperationFailure => s.recordOperationFailure

def loopSystem : System WebResearchLoopState LoopOperation :=
  ⟨fun s operation => some (loopStep s operation)⟩

end WeaveRuntime.WebResearch
