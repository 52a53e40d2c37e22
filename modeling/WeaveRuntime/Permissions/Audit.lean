/-
What the policy stack decides, and what it says it decided.

The reference walks the layers: the last rule of a layer that matches
decides for it, else its fallback, and the last layer that decides wins.
The code agrees with it on every stack (`behavior_refines`). The
explanation it builds is the reference's too (`explanationOf_eq`); but the
metadata of the winner is written over the details that hold it, so what
is recorded under `policy_explanation` is that explanation exactly when no
such metadata is in the way (`policy_stack_audited_iff`).

A metadata mapping that a rule brought to its decision is part of the
explanation, so it cannot hold that explanation: a matched rule with the
key always masks it.
-/
import WeaveRuntime.Jobs.Fields
import WeaveRuntime.Permissions.Explanation

namespace WeaveRuntime.Permissions.Explained

open Python
open Jobs
open Tools (PermissionBehavior ToolInput)

-- ======= the reference

/-- Who decides for a layer. -/
inductive Verdict where
  | rule (winner : PermissionRule)
  | fallback (behavior : PermissionBehavior)

section Reference

variable (request : PermissionRequest)
  (snapshot : PermissionRequestMatchSnapshot)

def lastMatch (policy : PermissionPolicy) : Option PermissionRule :=
  (policy.rules.filter (·.matches request snapshot)).getLast?

/-- The last rule that matches, else the fallback, else nobody. -/
def verdict (policy : PermissionPolicy) : Option Verdict :=
  match lastMatch request snapshot policy with
  | some rule => some (.rule rule)
  | none => policy.fallbackBehavior.map .fallback

def Verdict.behavior : Verdict → PermissionBehavior
  | .rule winner => winner.behavior
  | .fallback behavior => behavior

def Verdict.message (policy : PermissionPolicy) : Verdict → Option String
  | .rule winner => winner.message
  | .fallback _ => policy.fallbackMessage

/-- The last layer that decides, with its index. -/
def deciding (layers : List PermissionPolicy) :
    Option (PermissionPolicy × Nat) :=
  (layers.zipIdx.filter fun entry =>
    (verdict request snapshot entry.1).isSome).getLast?

/-- What is decided: by the last layer that decides, else the base
outcome stands. -/
def referenceOutcome (layers : List PermissionPolicy) (payload : ToolInput)
    (baseOutcome : PermissionOutcome) : Permissions.PermissionOutcome :=
  match (deciding request snapshot layers).bind fun entry =>
      (verdict request snapshot entry.1).map fun v =>
        (v.behavior, v.message entry.1) with
  | none =>
    { behavior := baseOutcome.behavior
      message := baseOutcome.message
      updatedInput := some payload }
  | some (behavior, message) =>
    { behavior := behavior
      message :=
        if message = none ∧ behavior = baseOutcome.behavior then
          baseOutcome.message
        else message
      updatedInput := some payload }

/-- The explanation of one layer. -/
def referenceEvaluation (policy : PermissionPolicy) (index : Nat) :
    PermissionPolicyEvaluation where
  policyName := policy.name
  policyIndex := index
  decision := (verdict request snapshot policy).map (·.behavior)
  matchedRules := (policy.rules.zipIdx.filter fun entry =>
      entry.1.matches request snapshot).map fun entry =>
    { ruleIndex := entry.2, rule := entry.1 }
  fallbackUsed := (lastMatch request snapshot policy).isNone
    && policy.fallbackBehavior.isSome
  fallbackBehavior := match lastMatch request snapshot policy with
    | some _ => none
    | none => policy.fallbackBehavior
  fallbackMessage := match lastMatch request snapshot policy,
      policy.fallbackBehavior with
    | none, some _ => policy.fallbackMessage
    | _, _ => none
  source := policy.source
  metadata := policy.metadata

/-- The explanation of a stack: every layer with its rules, and the layer
that decides. -/
def referenceExplanation (layers : List PermissionPolicy) :
    PermissionEvaluationExplanation where
  request := snapshot
  layers := layers.zipIdx.map fun entry =>
    referenceEvaluation request snapshot entry.1 entry.2
  winningLayerIndex := (deciding request snapshot layers).map (·.2)
  metadata := [(.str "policy_count", .int layers.length)]

end Reference

section Layers

variable (engine : PermissionEngine) (context : Option PermissionContext)

/-- The rules in force: the context's, or the engine's defaults when the
context has none. -/
def rulesInForce : List PermissionRule :=
  match context with
  | some context =>
    if context.rules.isEmpty then engine.defaultRules else context.rules
  | none => engine.defaultRules

def ruleLayer (rules : List PermissionRule) : List PermissionPolicy :=
  if rules.isEmpty then []
  else [{ name := "legacy-rules", rules := rules, source := some "rule" }]

def stackLayers : List PermissionPolicy :=
  engine.defaultPolicies
    ++ (match context with
      | some context => context.policies
      | none => [])
    ++ ruleLayer (rulesInForce engine context)

theorem resolvedPolicies_eq (context : PermissionContext) :
    resolvedPolicies context
      = context.policies ++ ruleLayer context.rules := by
  unfold resolvedPolicies ruleLayer
  split
  · rw [List.append_nil]
  · rfl

theorem resolvedPolicies_resolveContext (sessionId : String) :
    resolvedPolicies (engine.resolveContext context sessionId)
      = stackLayers engine context := by
  rw [resolvedPolicies_eq]
  cases context with
  | none =>
    unfold stackLayers
    rw [List.append_nil]
    rfl
  | some context => rfl

end Layers

-- ============ the scan

theorem getLast?_zipIdx_filter {α : Type} (p : α → Bool) (xs : List α) :
    ((xs.zipIdx.filter fun entry => p entry.1).getLast?).map (·.1)
      = (xs.filter p).getLast? := by
  have hfilter : (xs.zipIdx.filter fun entry => p entry.1).map (·.1)
      = xs.filter p := by
    calc (xs.zipIdx.filter fun entry => p entry.1).map (·.1)
        = (xs.zipIdx.map (·.1)).filter p := by
          rw [List.filter_map]
          rfl
      _ = xs.filter p := by rw [List.zipIdx_map_fst]
  rw [← hfilter, List.getLast?_map]

section Scan

variable (request : PermissionRequest)
  (snapshot : PermissionRequestMatchSnapshot)

variable (policy : PermissionPolicy)

/-- What the loop has kept after some rules: those that match, the last of
them, and its details. -/
theorem foldl_scanRule (entries : List (PermissionRule × Nat)) :
    entries.foldl (scanRule request snapshot policy) {}
      = { matchedRules := (entries.filter fun entry =>
            entry.1.matches request snapshot).map fun entry =>
              { ruleIndex := entry.2, rule := entry.1 }
          winnerRule := ((entries.filter fun entry =>
            entry.1.matches request snapshot).getLast?).map (·.1)
          winnerDetails := match ((entries.filter fun entry =>
              entry.1.matches request snapshot).getLast?) with
            | some entry => mergedFields policy.metadata entry.1.metadata
            | none => [] } := by
  induction entries using List.reverseRecOn with
  | nil => rfl
  | append_singleton entries entry ih =>
    rw [List.foldl_append, ih]
    by_cases h : entry.1.matches request snapshot = true
    · simp [scanRule, h, List.filter_append]
    · simp [scanRule, h, List.filter_append]

theorem scanRules_winnerRule :
    (scanRules request snapshot policy).winnerRule
      = lastMatch request snapshot policy := by
  unfold scanRules lastMatch
  rw [foldl_scanRule]
  exact getLast?_zipIdx_filter (·.matches request snapshot) policy.rules

theorem scanRules_winnerDetails :
    (scanRules request snapshot policy).winnerDetails
      = match lastMatch request snapshot policy with
        | some rule => mergedFields policy.metadata rule.metadata
        | none => [] := by
  unfold scanRules lastMatch
  rw [foldl_scanRule,
    ← getLast?_zipIdx_filter (·.matches request snapshot) policy.rules]
  cases (policy.rules.zipIdx.filter fun entry =>
      entry.1.matches request snapshot).getLast? with
  | none => rfl
  | some entry => rfl

theorem scanRules_matchedRules (index : Nat) :
    (scanRules request snapshot policy).matchedRules
      = (referenceEvaluation request snapshot policy index).matchedRules := by
  unfold scanRules
  rw [foldl_scanRule]
  rfl

/-- The metadata that come with a decision. -/
def broughtAlong (policy : PermissionPolicy) : Verdict → Fields
  | .rule winner => mergedFields policy.metadata winner.metadata
  | .fallback _ => mergedFields policy.metadata policy.fallbackMetadata

def Verdict.rule? : Verdict → Option PermissionRule
  | .rule winner => some winner
  | .fallback _ => none

theorem evaluatePolicy_evaluation (index : Nat) :
    (evaluatePolicy request snapshot policy index).evaluation
      = referenceEvaluation request snapshot policy index := by
  have hmatched := scanRules_matchedRules request snapshot policy index
  have hwinner := scanRules_winnerRule request snapshot policy
  unfold evaluatePolicy
  dsimp only
  rw [hmatched, hwinner]
  unfold referenceEvaluation verdict
  cases hlast : lastMatch request snapshot policy with
  | some rule => rfl
  | none =>
    cases policy.fallbackBehavior with
    | some behavior => rfl
    | none => rfl

/-- The outcome of a layer that decides. -/
def verdictOutcome (policy : PermissionPolicy) (index : Nat)
    (v : Verdict) : PermissionOutcome where
  behavior := v.behavior
  message := v.message policy
  details := resolvedDetails request policy index v.rule?
    (broughtAlong policy v)
  source := some (sourceOr policy.source)

theorem evaluatePolicy_of_verdict {policy : PermissionPolicy} {v : Verdict}
    (index : Nat) (h : verdict request snapshot policy = some v) :
    (evaluatePolicy request snapshot policy index).outcome
        = some (verdictOutcome request policy index v)
      ∧ (evaluatePolicy request snapshot policy index).details
        = (verdictOutcome request policy index v).details := by
  unfold evaluatePolicy
  dsimp only
  rw [scanRules_winnerRule, scanRules_winnerDetails]
  unfold verdict at h
  cases hlast : lastMatch request snapshot policy with
  | some rule =>
    rw [hlast] at h
    cases h
    exact ⟨rfl, rfl⟩
  | none =>
    rw [hlast] at h
    cases hfallback : policy.fallbackBehavior with
    | none =>
      rw [hfallback] at h
      cases h
    | some behavior =>
      rw [hfallback] at h
      cases h
      exact ⟨rfl, rfl⟩

theorem evaluatePolicy_of_no_verdict {policy : PermissionPolicy}
    (index : Nat) (h : verdict request snapshot policy = none) :
    (evaluatePolicy request snapshot policy index).outcome = none := by
  unfold evaluatePolicy
  dsimp only
  rw [scanRules_winnerRule]
  unfold verdict at h
  cases hlast : lastMatch request snapshot policy with
  | some rule =>
    rw [hlast] at h
    cases h
  | none =>
    rw [hlast] at h
    cases hfallback : policy.fallbackBehavior with
    | none => rfl
    | some behavior =>
      rw [hfallback] at h
      cases h

theorem evaluatePolicy_isSome (index : Nat) :
    (evaluatePolicy request snapshot policy index).outcome.isSome
      = (verdict request snapshot policy).isSome := by
  cases h : verdict request snapshot policy with
  | none =>
    rw [evaluatePolicy_of_no_verdict request snapshot index h]
    rfl
  | some v =>
    rw [(evaluatePolicy_of_verdict request snapshot index h).1]
    rfl

end Scan

-- =========== the stack

section Stack

variable (request : PermissionRequest)
  (snapshot : PermissionRequestMatchSnapshot)

def layerResults (layers : List PermissionPolicy) :
    List PolicyLayerResult :=
  layers.zipIdx.map fun entry =>
    evaluatePolicy request snapshot entry.1 entry.2

theorem winner_eq (layers : List PermissionPolicy) :
    (layerResults request snapshot layers).reverse.find?
        (·.outcome.isSome)
      = (deciding request snapshot layers).map fun entry =>
          evaluatePolicy request snapshot entry.1 entry.2 := by
  unfold layerResults deciding
  rw [← List.head?_filter, List.filter_reverse, List.head?_reverse,
    List.filter_map, List.getLast?_map]
  congr 2
  refine List.filter_congr fun entry _ => ?_
  exact evaluatePolicy_isSome request snapshot entry.1 entry.2

theorem explanationOf_eq (layers : List PermissionPolicy) :
    explanationOf snapshot (layerResults request snapshot layers)
        ((deciding request snapshot layers).map fun entry =>
          evaluatePolicy request snapshot entry.1 entry.2)
      = referenceExplanation request snapshot layers := by
  have hlayers : (layerResults request snapshot layers).map (·.evaluation)
      = layers.zipIdx.map fun entry =>
          referenceEvaluation request snapshot entry.1 entry.2 := by
    unfold layerResults
    rw [List.map_map]
    refine List.map_congr_left fun entry _ => ?_
    exact evaluatePolicy_evaluation request snapshot entry.1 entry.2
  have hindex : ((deciding request snapshot layers).map fun entry =>
      evaluatePolicy request snapshot entry.1 entry.2).map
        (·.evaluation.policyIndex)
      = (deciding request snapshot layers).map (·.2) := by
    rw [Option.map_map]
    refine Option.map_congr fun entry _ => ?_
    rw [Function.comp_apply, evaluatePolicy_evaluation]
    rfl
  have hlength : (layerResults request snapshot layers).length
      = layers.length := by
    simp [layerResults]
  unfold explanationOf referenceExplanation
  rw [hlayers, hindex, hlength]

theorem verdict_of_deciding {layers : List PermissionPolicy}
    {entry : PermissionPolicy × Nat}
    (h : deciding request snapshot layers = some entry) :
    ∃ v, verdict request snapshot entry.1 = some v := by
  have hmem := List.mem_of_getLast? h
  exact Option.isSome_iff_exists.1 (List.mem_filter.1 hmem).2

variable (payload : ToolInput) (baseOutcome : PermissionOutcome)

def explainedDetails (layers : List PermissionPolicy) : Fields :=
  setDefault
    (setField baseOutcome.details (.str "policy_explanation")
      (referenceExplanation request snapshot layers).toDict)
    "policy_composition" (text "ordered-policy-stack:last-decision-wins")

theorem applyPolicyStack_cases {context : PermissionContext}
    (layers : List PermissionPolicy)
    (hlayers : resolvedPolicies context = layers) :
    (layers = [] ∧ applyPolicyStack context request snapshot payload
        baseOutcome = { baseOutcome with updatedInput := some payload })
      ∨ (layers ≠ [] ∧ deciding request snapshot layers = none
        ∧ applyPolicyStack context request snapshot payload baseOutcome
          = { baseOutcome with
              updatedInput := some payload
              details := explainedDetails request snapshot baseOutcome
                layers })
      ∨ ∃ entry v, deciding request snapshot layers = some entry
        ∧ verdict request snapshot entry.1 = some v
        ∧ applyPolicyStack context request snapshot payload baseOutcome
          = { behavior := v.behavior
              message :=
                if v.message entry.1 = none
                    ∧ v.behavior = baseOutcome.behavior then
                  baseOutcome.message
                else v.message entry.1
              updatedInput := some payload
              details := updateFields
                (explainedDetails request snapshot baseOutcome layers)
                (verdictOutcome request entry.1 entry.2 v).details
              source := some (sourceOr entry.1.source) } := by
  have hwinner := winner_eq request snapshot layers
  have hexplained := explanationOf_eq request snapshot layers
  unfold layerResults at hwinner hexplained
  unfold applyPolicyStack
  dsimp only
  rw [hlayers]
  cases hempty : layers with
  | nil => exact Or.inl ⟨rfl, rfl⟩
  | cons first rest =>
    rw [← hempty, hwinner, hexplained]
    have hne : layers.isEmpty = false := by rw [hempty]; rfl
    rw [hne]
    cases hdeciding : deciding request snapshot layers with
    | none =>
      refine Or.inr (Or.inl ⟨?_, rfl, rfl⟩)
      rw [hempty]
      exact List.cons_ne_nil _ _
    | some entry =>
      obtain ⟨v, hv⟩ := verdict_of_deciding request snapshot hdeciding
      obtain ⟨houtcome, hdetails⟩ :=
        evaluatePolicy_of_verdict request snapshot entry.2 hv
      refine Or.inr (Or.inr ⟨entry, v, rfl, hv, ?_⟩)
      simp only [Option.map_some, houtcome, hdetails]
      rfl

/-- The stack decides what the reference decides. -/
theorem behavior_refines {context : PermissionContext}
    (layers : List PermissionPolicy)
    (hlayers : resolvedPolicies context = layers) :
    (applyPolicyStack context request snapshot payload
        baseOutcome).toPermissionOutcome
      = referenceOutcome request snapshot layers payload baseOutcome := by
  unfold referenceOutcome
  obtain ⟨hnil, heq⟩ | ⟨-, hnone, heq⟩ | ⟨entry, v, hdeciding, hv, heq⟩ :=
    applyPolicyStack_cases request snapshot payload baseOutcome layers
      hlayers
  · rw [heq, hnil]
    rfl
  · rw [heq, hnone]
    rfl
  · rw [heq, hdeciding]
    simp only [Option.bind_some, hv, Option.map_some]

end Stack

-- =========== the audit

theorem nodup_mergedFields (left right : Fields) :
    ((mergedFields left right).map (·.1)).Nodup :=
  nodup_updateFields right (nodup_updateFields left List.nodup_nil)

theorem nodup_setDefault {fields : Fields} (key : String) (value : PyVal)
    (h : (fields.map (·.1)).Nodup) :
    ((setDefault fields key value).map (·.1)).Nodup := by
  unfold setDefault
  split
  · exact h
  · exact nodup_setField (.str key) value h

theorem lookupKey_setDefault (fields : Fields) {key name : String}
    (value : PyVal) (h : key ≠ name) :
    lookupKey (setDefault fields key value) name = lookupKey fields name := by
  unfold setDefault
  split
  · rfl
  · rw [lookupKey_setField, if_neg h]

section Audit

variable (request : PermissionRequest)
  (snapshot : PermissionRequestMatchSnapshot)

theorem resolvedDetails_keeps (policy : PermissionPolicy) (index : Nat)
    (winner : Option PermissionRule) {details : Fields}
    (h : (details.map (·.1)).Nodup) :
    lookupKey (resolvedDetails request policy index winner details)
        "policy_explanation" = lookupKey details "policy_explanation"
      ∧ ((resolvedDetails request policy index winner details).map
        (·.1)).Nodup := by
  have hstep : ∀ (fields : Fields) (key : String) (value : PyVal),
      key ≠ "policy_explanation" →
      (lookupKey fields "policy_explanation"
          = lookupKey details "policy_explanation"
        ∧ (fields.map (·.1)).Nodup) →
      lookupKey (setDefault fields key value) "policy_explanation"
          = lookupKey details "policy_explanation"
        ∧ ((setDefault fields key value).map (·.1)).Nodup :=
    fun fields key value hne hfields =>
      ⟨(lookupKey_setDefault fields value hne).trans hfields.1,
        nodup_setDefault key value hfields.2⟩
  have hnumbered := hstep _ "policy_index" (.int index) (by decide)
    (hstep _ "policy_name" (text policy.name) (by decide) ⟨rfl, h⟩)
  unfold resolvedDetails
  dsimp only
  cases winner with
  | none =>
    cases policy.source with
    | none => exact hnumbered
    | some source =>
      have hsourced := hstep _ "policy_source" (text source) (by decide)
        hnumbered
      split
      · exact hstep _ "preset_target" _ (by decide) hsourced
      · exact hsourced
  | some rule =>
    have hruled := hstep _ "policy_rule" (text rule.selector) (by decide)
      hnumbered
    cases policy.source with
    | none => exact hruled
    | some source =>
      have hsourced := hstep _ "policy_source" (text source) (by decide)
        hruled
      split
      · exact hstep _ "preset_target" _ (by decide) hsourced
      · exact hsourced

/-- What is recorded of a stack: the explanation of the reference under
its key; where there are no layers, nothing. -/
def Recorded (layers : List PermissionPolicy)
    (baseOutcome outcome : PermissionOutcome) : Prop :=
  (layers = [] → outcome.details = baseOutcome.details)
    ∧ (layers ≠ [] → lookupKey outcome.details "policy_explanation"
      = some (referenceExplanation request snapshot layers).toDict)

/-- What comes with a verdict has nothing under the explanation's key; for
a fallback it may be the very explanation. -/
def LeavesRoom (policy : PermissionPolicy) (explanation : PyVal) :
    Verdict → Prop
  | .rule winner =>
    lookupKey (mergedFields policy.metadata winner.metadata)
      "policy_explanation" = none
  | .fallback _ =>
    ∀ value, lookupKey (mergedFields policy.metadata
        policy.fallbackMetadata) "policy_explanation" = some value →
      value = explanation

/-- No metadata of the layer that decides are in the way of the
explanation. -/
def Unmasked (layers : List PermissionPolicy) : Prop :=
  ∀ entry v, deciding request snapshot layers = some entry →
    verdict request snapshot entry.1 = some v →
    LeavesRoom entry.1
      (referenceExplanation request snapshot layers).toDict v

theorem lookupKey_explainedDetails (baseOutcome : PermissionOutcome)
    (layers : List PermissionPolicy) :
    lookupKey (explainedDetails request snapshot baseOutcome layers)
        "policy_explanation"
      = some (referenceExplanation request snapshot layers).toDict := by
  unfold explainedDetails
  rw [lookupKey_setDefault _ _ (by decide), lookupKey_setField, if_pos rfl]

theorem lookupKey_winnerDetails (baseOutcome : PermissionOutcome)
    (layers : List PermissionPolicy) (policy : PermissionPolicy)
    (index : Nat) (v : Verdict) :
    lookupKey (updateFields
        (explainedDetails request snapshot baseOutcome layers)
        (verdictOutcome request policy index v).details)
        "policy_explanation"
      = (lookupKey (broughtAlong policy v) "policy_explanation").or
          (some (referenceExplanation request snapshot layers).toDict) := by
  have hbrought : ((broughtAlong policy v).map (·.1)).Nodup := by
    cases v with
    | rule winner => exact nodup_mergedFields _ _
    | fallback behavior => exact nodup_mergedFields _ _
  obtain ⟨hkeeps, hnodup⟩ := resolvedDetails_keeps request policy index
    v.rule? hbrought
  unfold verdictOutcome
  rw [lookupKey_updateFields _ _ hnodup, lookupKey_explainedDetails, hkeeps]

-- ---- an explanation is larger

variable {value : PyVal}

theorem sizeOf_list {values : List PyVal} (h : value ∈ values) :
    sizeOf value < sizeOf (PyVal.list values) := by
  have hlt := List.sizeOf_lt_of_mem h
  simp only [PyVal.list.sizeOf_spec]
  omega

theorem sizeOf_dict {fields : Fields} {key : PyKey}
    (h : (key, value) ∈ fields) :
    sizeOf value < sizeOf (PyVal.dict fields) := by
  have hlt := List.sizeOf_lt_of_mem h
  simp only [Prod.mk.sizeOf_spec] at hlt
  simp only [PyVal.dict.sizeOf_spec]
  omega

theorem sizeOf_ruleEvaluation (evaluation : PermissionRuleEvaluation)
    {key : PyKey} (h : (key, value) ∈ evaluation.rule.metadata) :
    sizeOf value < sizeOf evaluation.toDict := by
  have hne : evaluation.rule.metadata ≠ [] := List.ne_nil_of_mem h
  refine (sizeOf_dict h).trans ?_
  unfold PermissionRuleEvaluation.toDict
  dsimp only
  rw [if_neg hne]
  exact sizeOf_dict (show (PyKey.str "metadata", _) ∈ _ by simp)

theorem sizeOf_policyEvaluation (evaluation : PermissionPolicyEvaluation)
    {key : PyKey} (h : (key, value) ∈ evaluation.metadata
      ∨ ∃ rule ∈ evaluation.matchedRules,
        (key, value) ∈ rule.rule.metadata) :
    sizeOf value < sizeOf evaluation.toDict := by
  unfold PermissionPolicyEvaluation.toDict
  obtain hown | ⟨rule, hrule, hmetadata⟩ := h
  · refine (sizeOf_dict hown).trans ?_
    exact sizeOf_dict (show (PyKey.str "metadata", _) ∈ _ by simp)
  · refine (sizeOf_ruleEvaluation rule hmetadata).trans ?_
    refine (sizeOf_list (List.mem_map_of_mem hrule)).trans ?_
    exact sizeOf_dict (show (PyKey.str "matched_rules", _) ∈ _ by simp)

theorem sizeOf_explanation (explanation : PermissionEvaluationExplanation)
    {layer : PermissionPolicyEvaluation} (h : layer ∈ explanation.layers) :
    sizeOf layer.toDict < sizeOf explanation.toDict := by
  unfold PermissionEvaluationExplanation.toDict
  refine (sizeOf_list (List.mem_map_of_mem h)).trans ?_
  exact sizeOf_dict (show (PyKey.str "layers", _) ∈ _ by simp)

theorem mem_of_lookupKey {fields : Fields} {name : String}
    (h : lookupKey fields name = some value) :
    (.str name, value) ∈ fields := by
  unfold lookupKey at h
  rw [Option.map_eq_some_iff] at h
  obtain ⟨e, he, rfl⟩ := h
  have hkey : e.1 = .str name := by simpa using List.find?_some he
  rw [← hkey]
  exact List.mem_of_find?_eq_some he

/-- What a deciding rule brings along cannot be the explanation: the
explanation holds it. -/
theorem explanation_not_brought {layers : List PermissionPolicy}
    {entry : PermissionPolicy × Nat} {winner : PermissionRule}
    (hdeciding : deciding request snapshot layers = some entry)
    (hv : verdict request snapshot entry.1 = some (.rule winner))
    (hvalue : lookupKey (mergedFields entry.1.metadata winner.metadata)
      "policy_explanation" = some value) :
    value ≠ (referenceExplanation request snapshot layers).toDict := by
  have hentry : entry ∈ layers.zipIdx :=
    (List.mem_filter.1 (List.mem_of_getLast? hdeciding)).1
  have hlast : lastMatch request snapshot entry.1 = some winner := by
    unfold verdict at hv
    cases hlast : lastMatch request snapshot entry.1 with
    | some rule =>
      rw [hlast] at hv
      cases hv
      rfl
    | none =>
      rw [hlast] at hv
      cases hfallback : entry.1.fallbackBehavior with
      | none => simp [hfallback] at hv
      | some behavior => simp [hfallback] at hv
  -- the winner is among the matched rules of its layer
  have hmatched : ∃ rule ∈ (referenceEvaluation request snapshot entry.1
      entry.2).matchedRules, rule.rule = winner := by
    unfold lastMatch at hlast
    rw [← getLast?_zipIdx_filter (·.matches request snapshot) entry.1.rules,
      Option.map_eq_some_iff] at hlast
    obtain ⟨indexed, hindexed, rfl⟩ := hlast
    exact ⟨_, List.mem_map_of_mem (List.mem_of_getLast? hindexed), rfl⟩
  obtain ⟨rule, hrule, hwinner⟩ := hmatched
  have hbrought : (PyKey.str "policy_explanation", value)
        ∈ (referenceEvaluation request snapshot entry.1 entry.2).metadata
      ∨ ∃ rule ∈ (referenceEvaluation request snapshot entry.1
          entry.2).matchedRules,
        (PyKey.str "policy_explanation", value) ∈ rule.rule.metadata := by
    obtain hleft | hright := mem_updateFields (mem_of_lookupKey hvalue)
    · obtain hnil | hown := mem_updateFields hleft
      · cases hnil
      · exact Or.inl hown
    · exact Or.inr ⟨rule, hrule, hwinner ▸ hright⟩
  have hlayer : referenceEvaluation request snapshot entry.1 entry.2
      ∈ (referenceExplanation request snapshot layers).layers :=
    List.mem_map.2 ⟨entry, hentry, rfl⟩
  have hlt := (sizeOf_policyEvaluation _ hbrought).trans
    (sizeOf_explanation _ hlayer)
  intro heq
  rw [heq] at hlt
  exact lt_irrefl _ hlt

/-- The explanation is recorded exactly where nothing masks it. -/
theorem recorded_iff_unmasked {context : PermissionContext}
    (layers : List PermissionPolicy)
    (hlayers : resolvedPolicies context = layers) (payload : ToolInput)
    (baseOutcome : PermissionOutcome) :
    Recorded request snapshot layers baseOutcome
        (applyPolicyStack context request snapshot payload baseOutcome)
      ↔ Unmasked request snapshot layers := by
  obtain ⟨hnil, heq⟩ | ⟨hne, hnone, heq⟩ | ⟨entry, v, hdeciding, hv, heq⟩ :=
    applyPolicyStack_cases request snapshot payload baseOutcome layers
      hlayers
  · rw [heq]
    refine iff_of_true ⟨fun _ => rfl, fun hne => absurd hnil hne⟩ ?_
    intro entry v hsome
    rw [hnil] at hsome
    cases hsome
  · rw [heq]
    refine iff_of_true ⟨fun h => absurd h hne, fun _ => ?_⟩ ?_
    · exact lookupKey_explainedDetails request snapshot baseOutcome layers
    · intro entry v hsome
      rw [hnone] at hsome
      cases hsome
  · have hne : layers ≠ [] := by
      rintro rfl
      cases hdeciding
    have hlookup := lookupKey_winnerDetails request snapshot baseOutcome
      layers entry.1 entry.2 v
    have hrecorded : Recorded request snapshot layers baseOutcome
        (applyPolicyStack context request snapshot payload baseOutcome)
        ↔ (lookupKey (broughtAlong entry.1 v) "policy_explanation").or
            (some (referenceExplanation request snapshot layers).toDict)
          = some (referenceExplanation request snapshot layers).toDict := by
      rw [heq, ← hlookup]
      exact ⟨fun h => h.2 hne, fun h => ⟨fun hnil => absurd hnil hne,
        fun _ => h⟩⟩
    have hunmasked : Unmasked request snapshot layers
        ↔ LeavesRoom entry.1
            (referenceExplanation request snapshot layers).toDict v := by
      refine ⟨fun h => h entry v hdeciding hv, ?_⟩
      intro h entry' v' hdeciding' hv'
      rw [hdeciding] at hdeciding'
      cases hdeciding'
      rw [hv] at hv'
      cases hv'
      exact h
    rw [hrecorded, hunmasked]
    cases v with
    | rule winner =>
      cases hvalue : lookupKey (mergedFields entry.1.metadata
          winner.metadata) "policy_explanation" with
      | none => simp [broughtAlong, LeavesRoom, hvalue]
      | some value =>
        have hneq := explanation_not_brought request snapshot hdeciding
          hv hvalue
        simp [broughtAlong, LeavesRoom, hvalue, hneq]
    | fallback behavior =>
      cases hvalue : lookupKey (mergedFields entry.1.metadata
          entry.1.fallbackMetadata) "policy_explanation" with
      | none => simp [broughtAlong, LeavesRoom, hvalue]
      | some value => simp [broughtAlong, LeavesRoom, hvalue]

end Audit

-- ==== the engine's stack

section Forget

/-- A policy without what it records. -/
def PermissionPolicy.forget (policy : PermissionPolicy) :
    Permissions.PermissionPolicy where
  rules := policy.rules.map (·.toPermissionRule)
  fallbackBehavior := policy.fallbackBehavior
  fallbackMessage := policy.fallbackMessage

variable (request : PermissionRequest)
  (snapshot : PermissionRequestMatchSnapshot)

theorem evaluatePolicy_forget (policy : PermissionPolicy) :
    Permissions.evaluatePolicy policy.forget request
        snapshot.toPermissionRequestMatchSnapshot
      = (verdict request snapshot policy).map fun v =>
          (v.behavior, v.message policy) := by
  have hrules : policy.forget.rules
      = policy.rules.map (·.toPermissionRule) := rfl
  have hfallback : policy.forget.fallbackBehavior
      = policy.fallbackBehavior := rfl
  have hlast : policy.forget.rules.reverse.find?
      (fun rule => rule.matches request
        snapshot.toPermissionRequestMatchSnapshot)
      = (lastMatch request snapshot policy).map (·.toPermissionRule) := by
    unfold lastMatch
    rw [hrules, ← List.map_reverse, List.find?_map, ← List.head?_filter,
      List.filter_reverse, List.head?_reverse]
    rfl
  unfold Permissions.evaluatePolicy verdict
  rw [hlast, hfallback]
  cases lastMatch request snapshot policy with
  | some rule => rfl
  | none =>
    cases policy.fallbackBehavior with
    | some behavior => rfl
    | none => rfl

theorem resolvedPolicies_forget {context : PermissionContext}
    {old : Permissions.PermissionContext}
    (hrules : old.rules = context.rules.map (·.toPermissionRule))
    (hpolicies : old.policies = context.policies.map (·.forget)) :
    Permissions.resolvedPolicies old
      = (resolvedPolicies context).map (·.forget) := by
  unfold Permissions.resolvedPolicies
  rw [resolvedPolicies_eq, List.map_append, hrules, hpolicies]
  unfold ruleLayer
  cases context.rules with
  | nil => simp
  | cons rule rules => simp [PermissionPolicy.forget]

theorem findSome?_reverse {α β : Type} (f : α → Option β) (xs : List α) :
    xs.reverse.findSome? f
      = ((xs.filter fun x => (f x).isSome).getLast?).bind f := by
  induction xs using List.reverseRecOn with
  | nil => rfl
  | append_singleton xs x ih =>
    rw [List.reverse_append, List.filter_append]
    cases h : f x with
    | some value => simp [h]
    | none => simpa [h] using ih

theorem forget_applyPolicyStack {context : PermissionContext}
    {old : Permissions.PermissionContext}
    (hrules : old.rules = context.rules.map (·.toPermissionRule))
    (hpolicies : old.policies = context.policies.map (·.forget))
    (payload : ToolInput) (baseOutcome : PermissionOutcome) :
    (applyPolicyStack context request snapshot payload
        baseOutcome).toPermissionOutcome
      = Permissions.applyPolicyStack old request
          snapshot.toPermissionRequestMatchSnapshot payload
          baseOutcome.toPermissionOutcome := by
  rw [behavior_refines request snapshot payload baseOutcome _ rfl]
  have hfound : ((resolvedPolicies context).map
      (·.forget)).reverse.findSome? (fun policy =>
        Permissions.evaluatePolicy policy request
          snapshot.toPermissionRequestMatchSnapshot)
      = (deciding request snapshot (resolvedPolicies context)).bind
          fun entry => (verdict request snapshot entry.1).map fun v =>
            (v.behavior, v.message entry.1) := by
    unfold deciding
    rw [← List.map_reverse, List.findSome?_map]
    have hpointwise : ((fun policy => Permissions.evaluatePolicy policy
        request snapshot.toPermissionRequestMatchSnapshot) ∘
          PermissionPolicy.forget)
        = fun policy => (verdict request snapshot policy).map fun v =>
            (v.behavior, v.message policy) :=
      funext fun policy => evaluatePolicy_forget request snapshot policy
    rw [hpointwise, findSome?_reverse]
    simp only [Option.isSome_map]
    rw [← getLast?_zipIdx_filter (fun policy =>
      (verdict request snapshot policy).isSome), Option.bind_map]
    rfl
  unfold Permissions.applyPolicyStack referenceOutcome
  rewrite [resolvedPolicies_forget hrules hpolicies, hfound]
  rfl

/-- What rules, policies, a request and a base outcome record beside what
they say, names and metadata, never changes the decision. -/
theorem records_never_decide {context other : PermissionContext}
    {recorded : PermissionRequestMatchSnapshot}
    {baseOutcome told : PermissionOutcome} (payload : ToolInput)
    (hrules : other.rules.map (·.toPermissionRule)
      = context.rules.map (·.toPermissionRule))
    (hpolicies : other.policies.map (·.forget)
      = context.policies.map (·.forget))
    (hsnapshot : recorded.toPermissionRequestMatchSnapshot
      = snapshot.toPermissionRequestMatchSnapshot)
    (hbase : told.toPermissionOutcome = baseOutcome.toPermissionOutcome) :
    (applyPolicyStack other request recorded payload
        told).toPermissionOutcome
      = (applyPolicyStack context request snapshot payload
          baseOutcome).toPermissionOutcome := by
  let old : Permissions.PermissionContext :=
    { rules := other.rules.map (·.toPermissionRule)
      policies := other.policies.map (·.forget) }
  have hold : old.rules = context.rules.map (·.toPermissionRule) := hrules
  have hother : old.rules = other.rules.map (·.toPermissionRule) := rfl
  rw [forget_applyPolicyStack request snapshot hold hpolicies payload
      baseOutcome,
    forget_applyPolicyStack request recorded hother rfl payload told,
    hsnapshot, hbase]

end Forget

-- =========== the claim

section Claim

variable (request : PermissionRequest)
  (snapshot : PermissionRequestMatchSnapshot)

theorem referenceExplanation_winner (layers : List PermissionPolicy) :
    (referenceExplanation request snapshot layers).winner
      = (deciding request snapshot layers).map fun entry =>
          referenceEvaluation request snapshot entry.1 entry.2 := by
  unfold PermissionEvaluationExplanation.winner
  cases hdeciding : deciding request snapshot layers with
  | none => simp [referenceExplanation, hdeciding]
  | some entry =>
    have hentry : entry ∈ layers.zipIdx :=
      (List.mem_filter.1 (List.mem_of_getLast? hdeciding)).1
    -- an index has one layer
    have hfind : layers.zipIdx.find? (fun e => e.2 = entry.2)
        = some entry := by
      cases hfound : layers.zipIdx.find? (fun e => e.2 = entry.2) with
      | none =>
        have hnone := List.find?_eq_none.1 hfound entry hentry
        simp at hnone
      | some other =>
        have hsame : other.2 = entry.2 := by
          simpa using List.find?_some hfound
        have hother := List.mk_mem_zipIdx_iff_getElem?.1
          (List.mem_of_find?_eq_some hfound)
        have hthis := List.mk_mem_zipIdx_iff_getElem?.1 hentry
        rw [hsame, hthis] at hother
        exact congrArg some (Prod.ext (Option.some.inj hother).symm hsame)
    simp only [referenceExplanation, hdeciding, Option.map_some,
      List.find?_map]
    exact congrArg (Option.map _) hfind

/-- The decision of the winning layer that is explained is the one taken;
with none the base outcome stands. -/
theorem explanation_yields (layers : List PermissionPolicy)
    (payload : ToolInput) (baseOutcome : PermissionOutcome) :
    (((referenceExplanation request snapshot layers).winner).bind
        (·.decision)).getD baseOutcome.behavior
      = (referenceOutcome request snapshot layers payload
          baseOutcome).behavior := by
  rw [referenceExplanation_winner]
  unfold referenceOutcome
  cases hdeciding : deciding request snapshot layers with
  | none => rfl
  | some entry =>
    obtain ⟨v, hv⟩ := verdict_of_deciding request snapshot hdeciding
    simp [referenceEvaluation, hv]

/-- The stack decides what the reference decides, on every stack; the
explanation recorded is the reference's, whose winning layer has the
decision taken, exactly when no metadata of the winner mask it. -/
theorem policy_stack_audited_iff (engine : PermissionEngine)
    (context : Option PermissionContext) (sessionId : String)
    (payload : ToolInput) (baseOutcome : PermissionOutcome) :
    (applyPolicyStack (engine.resolveContext context sessionId) request
        snapshot payload baseOutcome).toPermissionOutcome
        = referenceOutcome request snapshot (stackLayers engine context)
            payload baseOutcome
      ∧ (Recorded request snapshot (stackLayers engine context) baseOutcome
            (applyPolicyStack (engine.resolveContext context sessionId)
              request snapshot payload baseOutcome)
          ∧ (((referenceExplanation request snapshot
              (stackLayers engine context)).winner).bind
                (·.decision)).getD baseOutcome.behavior
            = (applyPolicyStack (engine.resolveContext context sessionId)
                request snapshot payload baseOutcome).behavior
        ↔ Unmasked request snapshot (stackLayers engine context)) := by
  have hlayers := resolvedPolicies_resolveContext engine context sessionId
  have hbehavior := behavior_refines request snapshot payload baseOutcome
    (stackLayers engine context) hlayers
  refine ⟨hbehavior, ?_⟩
  rw [hbehavior, recorded_iff_unmasked request snapshot
    (stackLayers engine context) hlayers payload baseOutcome]
  exact and_iff_left (explanation_yields request snapshot _ payload
    baseOutcome)

end Claim

/-- A rule for every tool, with a note under the explanation's key. -/
def notedRule : PermissionRule where
  selector := "*"
  behavior := .allow
  metadata := [(.str "policy_explanation", .str "approved in review")]

def notedContext : PermissionContext where
  sessionId := "s1"
  policies := [{ name := "reviewed", rules := [notedRule] }]

def notedRequest : PermissionRequest where
  sessionId := "s1"
  turnId := none
  target := .skill
  name := "review"
  payload := []
  definition := none

def notedSnapshot : PermissionRequestMatchSnapshot where
  target := .skill
  name := "review"
  candidateNames := ["review"]
  scopes := ["session"]
  riskLevel := none
  operation := none
  readOnly := none
  tags := []

theorem note_masks_explanation :
    ¬ Recorded notedRequest notedSnapshot
        (stackLayers {} (some notedContext)) { behavior := .ask }
        (applyPolicyStack
          (PermissionEngine.resolveContext {} (some notedContext) "s1")
          notedRequest notedSnapshot [] { behavior := .ask }) := by
  intro h
  have hnote : lookupKey (applyPolicyStack
      (PermissionEngine.resolveContext {} (some notedContext) "s1")
      notedRequest notedSnapshot [] { behavior := .ask }).details
      "policy_explanation" = some (.str "approved in review") := rfl
  have hrecorded := h.2 (List.cons_ne_nil _ _)
  rw [hnote] at hrecorded
  cases hrecorded

/-- The stack with the note, and the one without. -/
theorem records_never_decide_note :
    (applyPolicyStack notedContext notedRequest notedSnapshot []
        { behavior := .ask }).toPermissionOutcome
      = (applyPolicyStack { sessionId := "s2", policies := [{
          name := "plain", rules := [{ notedRule with metadata := [] }] }] }
          notedRequest notedSnapshot []
          { behavior := .ask }).toPermissionOutcome :=
  records_never_decide notedRequest notedSnapshot [] rfl rfl rfl rfl

end WeaveRuntime.Permissions.Explained
