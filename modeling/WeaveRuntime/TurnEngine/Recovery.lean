/-
What the turn loop decides after an attempt: `DefaultRecoveryPolicy`, the
say a recovery hook has in it, and the terminal of a turn.

`evaluate` reads the normalized attempt, the outcome of the stop phase
and the counters of the retries so far; `afterDecision` counts the
decision that was made of it. A retry of a failure is admitted while its
counter is under the policy's ceiling (`retries`); the other ways to go
on are not counted.

`applyRecoveryHookResult` is the last word: a hook may block the session,
add to the decision, or, where the decision is to halt, resume the turn.
For that last it asks whether a registration has matched.
-/
import WeaveRuntime.TurnEngine.HookResults
import WeaveRuntime.Lib.Dict
import Mathlib.Data.List.Dedup
import Mathlib.Data.String.Basic

namespace WeaveRuntime.TurnEngine

open Lib Python
open Jobs (Fields getField setField updateFields)

variable {M : Type}

-- ========== the values

inductive FailureClassification where
  | none | contextLimit | outputLimit | mediaLimit | providerOverload
  | authError | toolSchemaError | internalError
  deriving DecidableEq, Repr

def FailureClassification.value : FailureClassification → String
  | .none => "none"
  | .contextLimit => "context_limit"
  | .outputLimit => "output_limit"
  | .mediaLimit => "media_limit"
  | .providerOverload => "provider_overload"
  | .authError => "auth_error"
  | .toolSchemaError => "tool_schema_error"
  | .internalError => "internal_error"

def FailureClassification.ofValue (text : String) :
    Option FailureClassification :=
  [FailureClassification.none, .contextLimit, .outputLimit, .mediaLimit,
    .providerOverload, .authError, .toolSchemaError, .internalError].find?
    fun c => c.value = text

inductive RecoveryAction where
  | halt | continueSameTurn | rebuildRequest | compactAndRetry
  | retryWithOverride
  deriving DecidableEq, Repr

def RecoveryAction.value : RecoveryAction → String
  | .halt => "halt"
  | .continueSameTurn => "continue_same_turn"
  | .rebuildRequest => "rebuild_request"
  | .compactAndRetry => "compact_and_retry"
  | .retryWithOverride => "retry_with_override"

/-- An attempt that has ended. -/
structure AttemptFinished where
  iteration : Nat
  requestId : Option String := none
  attemptStopReason : Option String := none
  usage : Fields := []
  error : Option String := none
  abortReason : Option String := none
  producedToolCalls : Bool := false
  toolCallCount : Nat := 0
  metadata : Fields := []

structure NormalizedRecoveryInput where
  terminalReason : Option String := none
  failureClass : FailureClassification := .none
  retryable : Bool := false
  error : Option String := none
  abortReason : Option String := none
  producedToolCalls : Bool := false
  toolCallCount : Nat := 0
  maxTurnsExhausted : Bool := false
  toolExecutorUnavailable : Bool := false
  metadata : Fields := []

def toolFailureAbort (reason : Option String) : Bool :=
  match reason with
  | some text => text.startsWith "tool_failure:"
  | none => false

def NormalizedRecoveryInput.interrupted (i : NormalizedRecoveryInput) :
    Bool :=
  (i.abortReason.isSome && !toolFailureAbort i.abortReason)
    || (i.terminalReason == some "interrupted"
      && !toolFailureAbort i.abortReason)

def NormalizedRecoveryInput.terminalFailure (i : NormalizedRecoveryInput) :
    Bool :=
  i.failureClass != .none || i.interrupted || i.maxTurnsExhausted
    || i.toolExecutorUnavailable

-- ==== normalizing an attempt

def coerceFailureClass : PyVal → Option FailureClassification
  | .none => none
  | value => FailureClassification.ofValue (pyStr value)

def coerceOptionalInt : PyVal → Option Int
  | .none | .bool _ => none
  | .int i => some i
  | value => parseInt (pyStrip (pyStr value))

def failureClassFromTerminalReason (reason error : Option String) :
    FailureClassification :=
  if reason = some "prompt_too_long" ∨ reason = some "context_limit" then
    .contextLimit
  else if reason = some "output_limit" ∨ reason = some "max_tokens" then
    .outputLimit
  else if reason = some "image_error" ∨ reason = some "media_limit" then
    .mediaLimit
  else if reason = some "provider_overload" then .providerOverload
  else if reason = some "auth_error" then .authError
  else if error.isSome ∧ (reason = some "error" ∨ reason = none) then
    .internalError
  else .none

/-- The class of an attempt: its metadata's, unless that says little and
the hints of the context window (`hinted`) say more. -/
def attemptFailureClass
    (hinted : Option (FailureClassification × Option Bool))
    (stopReason : Option String) (attempt : AttemptFinished) :
    FailureClassification :=
  match hinted, coerceFailureClass (getField attempt.metadata
      "failure_class") with
  | some h, none => h.1
  | some h, some c => if c = .none ∨ c = .internalError then h.1 else c
  | none, some c => c
  | none, none => failureClassFromTerminalReason stopReason attempt.error

/-- The classes that may be retried where nothing says otherwise. -/
def FailureClassification.retryable : FailureClassification → Bool
  | .contextLimit | .outputLimit | .mediaLimit | .providerOverload => true
  | _ => false

def attemptRetryable (hinted : Option (FailureClassification × Option Bool))
    (failureClass : FailureClassification) (attempt : AttemptFinished) :
    Bool :=
  let stated := match getField attempt.metadata "retryable" with
    | .bool b => some b
    | _ => none
  let byHint := match hinted with
    | some h => if failureClass = h.1 then h.2.or stated else stated
    | none => stated
  (byHint.or (hinted.bind Prod.snd)).getD failureClass.retryable

/-- `normalize_attempt_outcome`; `hinted` is what
`_classify_recovery_with_context_window_hints` says of the attempt. -/
def normalizeAttemptOutcome
    (hinted : Option (FailureClassification × Option Bool))
    (attempt : AttemptFinished)
    (maxTurnsExhausted toolExecutorUnavailable : Bool) :
    NormalizedRecoveryInput :=
  let stopReason := (match getField attempt.metadata "stop_reason" with
    | .str text => coerceText (some text)
    | _ => none).or attempt.attemptStopReason
  let failureClass := attemptFailureClass hinted stopReason attempt
  { terminalReason := stopReason
    failureClass := failureClass
    retryable := attemptRetryable hinted failureClass attempt
    error := attempt.error
    abortReason := attempt.abortReason
    producedToolCalls := attempt.producedToolCalls
    toolCallCount := attempt.toolCallCount
    maxTurnsExhausted := maxTurnsExhausted
    toolExecutorUnavailable := toolExecutorUnavailable
    metadata := attempt.metadata }

-- =========== decisions

structure RecoveryDecision (M : Type) where
  action : RecoveryAction
  reason : String
  metadata : Fields := []
  injectedMessages : List M := []
  requestOverride : Option RequestOverrideState := none
  terminalReason : Option String := none

def RequestOverrideState.overrideSources (o : RequestOverrideState) :
    List String :=
  (((o.fieldSources.map Prod.snd ++ o.source.toList).filter
    fun text => text ≠ "").dedup).mergeSort

/-- `__post_init__`: the metadata names the action, the reason and who
asked for the override. -/
def RecoveryDecision.postInit (d : RecoveryDecision M) : RecoveryDecision M :=
  let metadata := setDefault (setDefault d.metadata "recovery_action"
    (.str d.action.value)) "recovery_reason" (.str d.reason)
  let sources := match d.requestOverride with
    | some o => o.overrideSources
    | none => []
  { d with
    metadata := if sources = [] then metadata
      else setDefault metadata "override_sources"
        (.list (sources.map PyVal.str)) }

@[simp] theorem RecoveryDecision.postInit_action (d : RecoveryDecision M) :
    d.postInit.action = d.action := rfl

@[simp] theorem RecoveryDecision.postInit_injectedMessages
    (d : RecoveryDecision M) :
    d.postInit.injectedMessages = d.injectedMessages := rfl

@[simp] theorem RecoveryDecision.postInit_requestOverride
    (d : RecoveryDecision M) :
    d.postInit.requestOverride = d.requestOverride := rfl

structure StopPhaseOutcome (M : Type) where
  disposition : StopDisposition := .allowTerminal
  matchedHookOwners : List String := []
  injectedMessages : List M := []
  requestOverride : Option RequestOverrideState := none
  metadata : Fields := []

def dispatchIdText (id : Nat) : PyVal := .str ("hookdisp_" ++ toString id)

def stopPhaseOutcome (result : HookDispatchResult M) : StopPhaseOutcome M where
  disposition := result.stopDisposition
  matchedHookOwners := result.matchedOwners
  injectedMessages := result.injectedMessages
  requestOverride := RequestOverrideState.coerce result.requestOverride
  metadata := setField result.metadata (.str "hook_dispatch_id")
    (dispatchIdText result.dispatchId)

-- ======== the counters

structure RecoveryState where
  retryCounters : Dict FailureClassification Nat := Dict.empty
  priorCompactionAttempts : Dict FailureClassification Nat := Dict.empty
  pendingOverrideSnapshot : Option RequestOverrideState := none

/-- How often a class has been counted. -/
def countOf (counters : Dict FailureClassification Nat)
    (c : FailureClassification) : Nat :=
  (counters.get? c).getD 0

def countUp (counters : Dict FailureClassification Nat)
    (c : FailureClassification) : Dict FailureClassification Nat :=
  counters.insert c (countOf counters c + 1)

theorem countOf_countUp (counters : Dict FailureClassification Nat)
    (c c' : FailureClassification) :
    countOf (countUp counters c) c'
      = countOf counters c' + if c' = c then 1 else 0 := by
  unfold countOf countUp
  by_cases h : c' = c
  · subst h
    simp [countOf]
  · simp [Dict.get?_insert_of_ne _ _ h, h]

namespace RecoveryState

def retryCount (s : RecoveryState) (c : FailureClassification) : Nat :=
  countOf s.retryCounters c

def compactionAttemptCount (s : RecoveryState) (c : FailureClassification) :
    Nat :=
  countOf s.priorCompactionAttempts c

/-- `after_decision`. An override with no field set is as good as none. -/
def afterDecision (s : RecoveryState) (input : NormalizedRecoveryInput)
    (decision : RecoveryDecision M) : RecoveryState :=
  let counted := input.failureClass ≠ .none ∧ decision.action ≠ .halt
  { retryCounters :=
      if counted ∧ decision.action ≠ .compactAndRetry then
        countUp s.retryCounters input.failureClass
      else s.retryCounters
    priorCompactionAttempts :=
      if counted ∧ decision.action = .compactAndRetry then
        countUp s.priorCompactionAttempts input.failureClass
      else s.priorCompactionAttempts
    pendingOverrideSnapshot :=
      (RequestOverrideState.coerce decision.requestOverride).or
        s.pendingOverrideSnapshot }

def clearPendingOverride (s : RecoveryState) : RecoveryState :=
  { s with pendingOverrideSnapshot := none }

/-- A counter mapping, as metadata shows it. -/
def counterFields (counters : Dict FailureClassification Nat) : PyVal :=
  .dict (counters.entries.map fun e => (.str e.1.value, .int e.2))

end RecoveryState

-- ========== the policy

structure RecoveryPolicy where
  maxOutputLimitRetries : Nat := 1
  maxProviderOverloadRetries : Nat := 1
  maxCompactionAttempts : Nat := 1
  deriving DecidableEq

/-- What the prepared context adds to a decision's metadata. -/
structure PreparedSummary where
  generation : Nat := 1
  effectKinds : List String := []
  /-- `_prepared_context_event_metadata`. -/
  eventMetadata : Fields := []

def terminalReasonForFailureClass : FailureClassification → String
  | .none => "end_turn"
  | .contextLimit => "prompt_too_long"
  | .outputLimit => "incomplete"
  | .mediaLimit => "image_error"
  | .providerOverload | .authError | .toolSchemaError | .internalError =>
    "error"

def suggestMaxOutputTokens (existing : Option RequestOverrideState)
    (metadata : Fields) : Int :=
  match (existing.bind RequestOverrideState.maxOutputTokensOverride).or
      (coerceOptionalInt (getField metadata "max_output_tokens")) with
  | none => 2048
  | some current => max 256 (current * 2)

def outputLimitOverride (s : RecoveryState) (metadata : Fields) :
    Option RequestOverrideState :=
  RequestOverrideState.merge s.pendingOverrideSnapshot (some
    { maxOutputTokensOverride :=
        some (suggestMaxOutputTokens s.pendingOverrideSnapshot metadata)
      source := some "recovery:output_limit"
      fieldSources :=
        [("max_output_tokens_override", "recovery:output_limit")]
      sources := ["recovery:output_limit"] })

namespace RecoveryPolicy

variable (policy : RecoveryPolicy)

/-- The ceiling on the retries of a class, with the counter it is held
against. -/
def admitsRetry (s : RecoveryState) : FailureClassification →
    Option RecoveryAction
  | .contextLimit =>
    if s.compactionAttemptCount .contextLimit
        < policy.maxCompactionAttempts then some .compactAndRetry else none
  | .mediaLimit =>
    if s.compactionAttemptCount .mediaLimit
        < policy.maxCompactionAttempts then some .compactAndRetry else none
  | .outputLimit =>
    if s.retryCount .outputLimit < policy.maxOutputLimitRetries then
      some .retryWithOverride
    else none
  | .providerOverload =>
    if s.retryCount .providerOverload
        < policy.maxProviderOverloadRetries then some .rebuildRequest
    else none
  | _ => none

/-- The metadata every decision starts from. -/
def baseMetadata (s : RecoveryState) (input : NormalizedRecoveryInput) :
    Fields :=
  [(.str "failure_class", .str input.failureClass.value),
   (.str "retryable", .bool input.retryable),
   (.str "policy_tag", .str "default_recovery_policy"),
   (.str "retry_counters", RecoveryState.counterFields s.retryCounters),
   (.str "prior_compaction_attempts",
     RecoveryState.counterFields s.priorCompactionAttempts)]

/-- A failure: retried while its counter is under the ceiling. -/
def evaluateFailure (continuation : M) (s : RecoveryState)
    (input : NormalizedRecoveryInput) : RecoveryDecision M :=
  let metadata := baseMetadata s input
  match if input.retryable then policy.admitsRetry s input.failureClass
      else none with
  | some .retryWithOverride =>
    { action := .retryWithOverride, reason := "output_limit"
      requestOverride := outputLimitOverride s input.metadata
      injectedMessages := [continuation], metadata := metadata }
  | some action =>
    { action := action, reason := input.failureClass.value
      metadata := metadata }
  | none =>
    { action := .halt
      reason := if input.failureClass = .none then "attempt_error"
        else input.failureClass.value
      terminalReason :=
        some (terminalReasonForFailureClass input.failureClass)
      metadata := metadata }

/-- No failure: the stop phase may go on or block, tool calls go on. -/
def evaluateCompleted (s : RecoveryState) (input : NormalizedRecoveryInput)
    (stop : Option (StopPhaseOutcome M)) (prepared : PreparedSummary) :
    RecoveryDecision M :=
  let metadata := match stop with
    | some outcome => setField (baseMetadata s input) (.str "matched_hooks")
        (.list (outcome.matchedHookOwners.map PyVal.str))
    | none => baseMetadata s input
  let ended : RecoveryDecision M :=
    if input.producedToolCalls then
      { action := .continueSameTurn, reason := "tool_replay_continuation"
        metadata := metadata }
    else
      { action := .halt, reason := "attempt_completed"
        terminalReason := textOr input.terminalReason (some "end_turn")
        metadata := setField (setField metadata (.str "context_generation")
            (.int prepared.generation)) (.str "context_effect_kinds")
          (.list (prepared.effectKinds.map PyVal.str)) }
  match stop with
  | some outcome =>
    match outcome.disposition with
    | .continueSameTurn =>
      { action := .continueSameTurn, reason := "stop_phase_continue"
        injectedMessages := outcome.injectedMessages
        requestOverride := outcome.requestOverride
        metadata := updateFields metadata outcome.metadata }
    | .blockSession =>
      { action := .halt, reason := "stop_hook_blocking"
        terminalReason := some "blocked"
        requestOverride := outcome.requestOverride
        metadata := updateFields metadata outcome.metadata }
    | _ => ended
  | none => ended

/-- `evaluate`; `continuation` is the message of
`_recovery_continuation_message`. -/
def evaluate (continuation : M) (s : RecoveryState)
    (input : NormalizedRecoveryInput) (stop : Option (StopPhaseOutcome M))
    (prepared : PreparedSummary) : RecoveryDecision M :=
  let metadata := baseMetadata s input
  RecoveryDecision.postInit <|
    if input.maxTurnsExhausted then
      { action := .halt, reason := "max_turns_exhausted"
        terminalReason := some "max_turns", metadata := metadata }
    else if input.interrupted then
      { action := .halt, reason := "attempt_interrupted"
        terminalReason := some "interrupted", metadata := metadata }
    else if input.toolExecutorUnavailable then
      { action := .halt, reason := "tool_executor_unavailable"
        terminalReason := some "blocked", metadata := metadata }
    else if input.terminalFailure then
      policy.evaluateFailure continuation s input
    else evaluateCompleted s input stop prepared

end RecoveryPolicy

-- ==== the recovery hooks

def resumedAction (override : Option RequestOverrideState)
    (input : NormalizedRecoveryInput) : RecoveryAction :=
  if override.isSome then .retryWithOverride
  else if input.producedToolCalls then .continueSameTurn
  else .rebuildRequest

def applyRecoveryHookResult (decision : RecoveryDecision M)
    (result : HookDispatchResult M) (input : NormalizedRecoveryInput) :
    RecoveryDecision M :=
  let override := RequestOverrideState.merge decision.requestOverride
    (RequestOverrideState.coerce result.requestOverride)
  let messages := decision.injectedMessages ++ result.injectedMessages
  let withId := setField decision.metadata (.str "recovery_hook_dispatch_id")
    (dispatchIdText result.dispatchId)
  let metadata := if result.matchedOwners = [] then withId
    else setField withId (.str "recovery_hook_matched")
      (.list (result.matchedOwners.map PyVal.str))
  RecoveryDecision.postInit <|
    if !result.continueExecution then
      { action := .halt, reason := "recovery_hook_blocked"
        requestOverride := override, injectedMessages := messages
        terminalReason := some "blocked", metadata := metadata }
    else if decision.action = .halt ∧ result.matchedOwners ≠ [] then
      { action := resumedAction override input
        reason := "recovery_hook_continue"
        requestOverride := override, injectedMessages := messages
        metadata := metadata }
    else
      { decision with
        requestOverride := override, injectedMessages := messages
        metadata := metadata }

theorem resumedAction_ne_halt (override : Option RequestOverrideState)
    (input : NormalizedRecoveryInput) :
    resumedAction override input ≠ .halt := by
  unfold resumedAction
  cases override with
  | some o => simp
  | none => cases input.producedToolCalls <;> simp

theorem applyRecoveryHookResult_action (decision : RecoveryDecision M)
    (result : HookDispatchResult M) (input : NormalizedRecoveryInput) :
    (applyRecoveryHookResult decision result input).action
      = if !result.continueExecution then .halt
        else if decision.action = .halt ∧ result.matchedOwners ≠ [] then
          resumedAction (RequestOverrideState.merge decision.requestOverride
            (RequestOverrideState.coerce result.requestOverride)) input
        else decision.action := by
  unfold applyRecoveryHookResult
  rw [RecoveryDecision.postInit_action]
  by_cases hcont : result.continueExecution = true
  · by_cases hhalt : decision.action = .halt ∧ result.matchedOwners ≠ []
    · simp [hcont, hhalt]
    · simp only [hcont, Bool.not_true, Bool.false_eq_true, if_false, hhalt]
  · simp [hcont]

end WeaveRuntime.TurnEngine
