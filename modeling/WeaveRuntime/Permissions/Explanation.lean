/-
The policy stack with everything it records (permissions/engine.py and
permissions/models.py): rules and policies with their metadata, the
explanation of an evaluation, and the details of an outcome.

The structures carry the source's names in a namespace of their own and
extend those of the engine, which left the details out; forgetting them
again gives the engine's stack (`forget_applyPolicyStack`).

An evaluation is one loop over the rules of a layer. It keeps the matched
rules for the explanation and, beside them, the winner so far with its
details: the audit and the behaviour are built apart.
-/
import WeaveRuntime.Jobs.Model
import WeaveRuntime.Permissions.Engine

namespace WeaveRuntime.Permissions.Explained

open Python
open Definitions (PermissionMode)
open Jobs (Fields setField updateFields)
open Tools (PermissionBehavior ToolRiskLevel ToolInput)

-- ============== models

structure PermissionRule extends Permissions.PermissionRule where
  metadata : Fields := []

structure PermissionPolicy where
  name : String
  rules : List PermissionRule := []
  fallbackBehavior : Option PermissionBehavior := none
  fallbackMessage : Option String := none
  metadata : Fields := []
  fallbackMetadata : Fields := []
  source : Option String := none

structure PermissionContext where
  sessionId : String
  mode : PermissionMode := .default
  rules : List PermissionRule := []
  policies : List PermissionPolicy := []
  metadata : Fields := []

structure PermissionRequestMatchSnapshot extends
    Permissions.PermissionRequestMatchSnapshot where
  metadata : Fields := []

structure PermissionOutcome extends Permissions.PermissionOutcome where
  details : Fields := []
  source : Option String := none

structure PermissionEngine where
  defaultMode : PermissionMode := .default
  defaultRules : List PermissionRule := []
  defaultPolicies : List PermissionPolicy := []
  metadata : Fields := []

structure PermissionRuleEvaluation where
  ruleIndex : Nat
  rule : PermissionRule

structure PermissionPolicyEvaluation where
  policyName : String
  policyIndex : Nat
  decision : Option PermissionBehavior := none
  matchedRules : List PermissionRuleEvaluation := []
  fallbackUsed : Bool := false
  fallbackBehavior : Option PermissionBehavior := none
  fallbackMessage : Option String := none
  source : Option String := none
  metadata : Fields := []

structure PermissionEvaluationExplanation where
  request : PermissionRequestMatchSnapshot
  layers : List PermissionPolicyEvaluation := []
  winningLayerIndex : Option Nat := none
  composition : String := "ordered-policy-stack:last-decision-wins"
  metadata : Fields := []

-- ======= serialization

def behaviorValue : PermissionBehavior → String
  | .allow => "allow"
  | .ask => "ask"
  | .deny => "deny"

def riskValue : ToolRiskLevel → String
  | .read => "read"
  | .write => "write"
  | .exec => "exec"
  | .network => "network"
  | .delegate => "delegate"

def text (value : String) : PyVal := .str value

def texts (values : List String) : PyVal := .list (values.map text)

def whenSome (key : String) (value : Option PyVal) : Fields :=
  match value with
  | some value => [(.str key, value)]
  | none => []

def whenAny (key : String) (values : List PyVal) : Fields :=
  if values = [] then [] else [(.str key, .list values)]

def PermissionRequestMatchSnapshot.toDict
    (snapshot : PermissionRequestMatchSnapshot) : PyVal :=
  .dict ([(.str "target", text snapshot.target.value),
      (.str "name", text snapshot.name),
      (.str "candidate_names", texts snapshot.candidateNames),
      (.str "scopes", texts snapshot.scopes),
      (.str "read_only", match snapshot.readOnly with
        | some readOnly => .bool readOnly
        | none => .none),
      (.str "metadata", .dict snapshot.metadata)]
    ++ whenSome "risk_level" (snapshot.riskLevel.map fun level =>
        text (riskValue level))
    ++ whenSome "operation" (snapshot.operation.map text)
    ++ whenAny "tags" (snapshot.tags.map text))

def PermissionRuleEvaluation.toDict (evaluation : PermissionRuleEvaluation) :
    PyVal :=
  let rule := evaluation.rule
  .dict ([(.str "rule_index", .int evaluation.ruleIndex),
      (.str "selector", text rule.selector),
      (.str "behavior", text (behaviorValue rule.behavior))]
    ++ whenSome "target" (rule.target.map fun target => text target.value)
    ++ whenSome "message" (rule.message.map text)
    ++ whenAny "scopes" (rule.scopes.map text)
    ++ whenAny "risk_levels" (rule.riskLevels.map fun level =>
        text (riskValue level))
    ++ whenAny "operations" (rule.operations.map text)
    ++ whenAny "tags" (rule.tags.map text)
    ++ whenSome "read_only" (rule.readOnly.map PyVal.bool)
    ++ if rule.metadata = [] then []
      else [(.str "metadata", .dict rule.metadata)])

def PermissionPolicyEvaluation.winningRule
    (evaluation : PermissionPolicyEvaluation) :
    Option PermissionRuleEvaluation :=
  evaluation.matchedRules.getLast?

def PermissionPolicyEvaluation.toDict
    (evaluation : PermissionPolicyEvaluation) : PyVal :=
  .dict ([(.str "policy_name", text evaluation.policyName),
      (.str "policy_index", .int evaluation.policyIndex),
      (.str "matched_rules", .list (evaluation.matchedRules.map (·.toDict))),
      (.str "fallback_used", .bool evaluation.fallbackUsed),
      (.str "metadata", .dict evaluation.metadata)]
    ++ whenSome "decision" (evaluation.decision.map fun behavior =>
        text (behaviorValue behavior))
    ++ whenSome "fallback_behavior" (evaluation.fallbackBehavior.map
        fun behavior => text (behaviorValue behavior))
    ++ whenSome "fallback_message" (evaluation.fallbackMessage.map text)
    ++ whenSome "source" (evaluation.source.map text)
    ++ whenSome "winning_rule" (evaluation.winningRule.map (·.toDict)))

def PermissionEvaluationExplanation.winner
    (explanation : PermissionEvaluationExplanation) :
    Option PermissionPolicyEvaluation :=
  match explanation.winningLayerIndex with
  | none => none
  | some index =>
    explanation.layers.find? fun layer => layer.policyIndex = index

def PermissionEvaluationExplanation.toDict
    (explanation : PermissionEvaluationExplanation) : PyVal :=
  .dict ([(.str "composition", text explanation.composition),
      (.str "request", explanation.request.toDict),
      (.str "layers", .list (explanation.layers.map (·.toDict))),
      (.str "metadata", .dict explanation.metadata)]
    ++ whenSome "winner" (explanation.winner.map (·.toDict)))

-- ========== the layers

section Layer

variable (request : PermissionRequest)
  (snapshot : PermissionRequestMatchSnapshot)

def PermissionRule.matches (rule : PermissionRule) : Bool :=
  rule.toPermissionRule.matches request
    snapshot.toPermissionRequestMatchSnapshot

def mergedFields (left right : Fields) : Fields :=
  updateFields (updateFields [] left) right

def setDefault (fields : Fields) (key : String) (value : PyVal) : Fields :=
  match lookupKey fields key with
  | some _ => fields
  | none => setField fields (.str key) value

/-- What the loop over the rules of a layer keeps. -/
structure RuleScan where
  matchedRules : List PermissionRuleEvaluation := []
  winnerRule : Option PermissionRule := none
  winnerDetails : Fields := []

/-- One turn of the loop. -/
def scanRule (policy : PermissionPolicy) (scan : RuleScan)
    (entry : PermissionRule × Nat) : RuleScan :=
  if entry.1.matches request snapshot then
    { matchedRules := scan.matchedRules
        ++ [{ ruleIndex := entry.2, rule := entry.1 }]
      winnerRule := some entry.1
      winnerDetails := mergedFields policy.metadata entry.1.metadata }
  else scan

/-- The loop. -/
def scanRules (policy : PermissionPolicy) : RuleScan :=
  policy.rules.zipIdx.foldl (scanRule request snapshot policy) {}

structure PolicyLayerResult where
  outcome : Option PermissionOutcome
  details : Fields
  evaluation : PermissionPolicyEvaluation

/-- `resolved_details`: the winner's own, and what they leave open. -/
def resolvedDetails (policy : PermissionPolicy) (policyIndex : Nat)
    (winnerRule : Option PermissionRule) (winnerDetails : Fields) :
    Fields :=
  let named := setDefault winnerDetails "policy_name" (text policy.name)
  let numbered := setDefault named "policy_index" (.int policyIndex)
  let ruled := match winnerRule with
    | some rule => setDefault numbered "policy_rule" (text rule.selector)
    | none => numbered
  let sourced := match policy.source with
    | some source => setDefault ruled "policy_source" (text source)
    | none => ruled
  if policy.source = some "preset" then
    setDefault sourced "preset_target" (text request.target.value)
  else sourced

def sourceOr (source : Option String) : String :=
  match source with
  | some source => if source = "" then "policy" else source
  | none => "policy"

def evaluatePolicy (policy : PermissionPolicy) (policyIndex : Nat) :
    PolicyLayerResult :=
  let scan := scanRules request snapshot policy
  let fallbackUsed := scan.winnerRule.isNone
    && policy.fallbackBehavior.isSome
  let decision := match scan.winnerRule with
    | some rule => some rule.behavior
    | none => policy.fallbackBehavior
  let message := match scan.winnerRule with
    | some rule => rule.message
    | none => if fallbackUsed then policy.fallbackMessage else none
  let winnerDetails := if fallbackUsed then
      mergedFields policy.metadata policy.fallbackMetadata
    else scan.winnerDetails
  let evaluation : PermissionPolicyEvaluation :=
    { policyName := policy.name
      policyIndex := policyIndex
      decision := decision
      matchedRules := scan.matchedRules
      fallbackUsed := fallbackUsed
      fallbackBehavior :=
        if fallbackUsed then policy.fallbackBehavior else none
      fallbackMessage :=
        if fallbackUsed then policy.fallbackMessage else none
      source := policy.source
      metadata := policy.metadata }
  match decision with
  | none => { outcome := none, details := [], evaluation := evaluation }
  | some behavior =>
    let details := resolvedDetails request policy policyIndex
      scan.winnerRule winnerDetails
    { outcome := some
        { behavior := behavior
          message := message
          details := details
          source := some (sourceOr policy.source) }
      details := details
      evaluation := evaluation }

end Layer

-- =========== the stack

def resolvedPolicies (context : PermissionContext) :
    List PermissionPolicy :=
  if context.rules.isEmpty then context.policies
  else context.policies
    ++ [{ name := "legacy-rules", rules := context.rules
          source := some "rule" }]

def PermissionEngine.resolveContext (engine : PermissionEngine)
    (context : Option PermissionContext) (sessionId : String) :
    PermissionContext :=
  match context with
  | some context =>
    { sessionId := context.sessionId
      mode := context.mode
      rules := if context.rules.isEmpty then engine.defaultRules
        else context.rules
      policies := engine.defaultPolicies ++ context.policies
      metadata := mergedFields engine.metadata context.metadata }
  | none =>
    { sessionId := sessionId
      mode := engine.defaultMode
      rules := engine.defaultRules
      policies := engine.defaultPolicies
      metadata := engine.metadata }

def explanationOf (snapshot : PermissionRequestMatchSnapshot)
    (layerResults : List PolicyLayerResult)
    (winner : Option PolicyLayerResult) :
    PermissionEvaluationExplanation where
  request := snapshot
  layers := layerResults.map (·.evaluation)
  winningLayerIndex := winner.map (·.evaluation.policyIndex)
  metadata := [(.str "policy_count", .int layerResults.length)]

def applyPolicyStack (context : PermissionContext)
    (request : PermissionRequest) (snapshot : PermissionRequestMatchSnapshot)
    (payload : ToolInput) (baseOutcome : PermissionOutcome) :
    PermissionOutcome :=
  let policies := resolvedPolicies context
  if policies.isEmpty then
    { behavior := baseOutcome.behavior
      message := baseOutcome.message
      updatedInput := some payload
      details := baseOutcome.details
      source := baseOutcome.source }
  else
    let layerResults := policies.zipIdx.map fun entry =>
      evaluatePolicy request snapshot entry.1 entry.2
    let winner := layerResults.reverse.find? (·.outcome.isSome)
    let explanation := explanationOf snapshot layerResults winner
    let details := setDefault
      (setField baseOutcome.details (.str "policy_explanation")
        explanation.toDict)
      "policy_composition" (text explanation.composition)
    match winner with
    | none =>
      { behavior := baseOutcome.behavior
        message := baseOutcome.message
        updatedInput := some payload
        details := details
        source := baseOutcome.source }
    | some winner =>
      match winner.outcome with
      | none => baseOutcome
      | some outcome =>
        { behavior := outcome.behavior
          message :=
            if outcome.message = none
                ∧ outcome.behavior = baseOutcome.behavior then
              baseOutcome.message
            else outcome.message
          updatedInput := some payload
          details := updateFields details winner.details
          source := outcome.source.or baseOutcome.source }

end WeaveRuntime.Permissions.Explained
