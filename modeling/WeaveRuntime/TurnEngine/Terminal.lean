/-
The terminal of a turn, as it is made of the last decision.
-/
import WeaveRuntime.TurnEngine.Recovery

namespace WeaveRuntime.TurnEngine

open Lib Python
open Jobs (Fields setField updateFields)

variable {M : Type}

inductive TurnTerminalReason where
  | endTurn | messageStop | blocked | interrupted | error | maxTurns
  | promptTooLong | imageError | incomplete
  deriving DecidableEq, Repr

def TurnTerminalReason.value : TurnTerminalReason → String
  | .endTurn => "end_turn"
  | .messageStop => "message_stop"
  | .blocked => "blocked"
  | .interrupted => "interrupted"
  | .error => "error"
  | .maxTurns => "max_turns"
  | .promptTooLong => "prompt_too_long"
  | .imageError => "image_error"
  | .incomplete => "incomplete"

def TurnTerminalReason.ofValue (text : String) : Option TurnTerminalReason :=
  [TurnTerminalReason.endTurn, .messageStop, .blocked, .interrupted, .error,
    .maxTurns, .promptTooLong, .imageError, .incomplete].find?
    fun r => r.value = text

inductive TurnTransitionReason where
  | nextTurn | stopHookBlocking | maxTurnsExhausted | attemptCompleted
  | attemptInterrupted | attemptError | toolExecutorUnavailable
  deriving DecidableEq, Repr

inductive TurnPhase where
  | prepare | terminal
  deriving DecidableEq, Repr

structure TurnTransition where
  reason : TurnTransitionReason
  recoveryAction : RecoveryAction
  nextPhase : TurnPhase
  metadata : Fields

structure TurnPostEffects where
  persistMemory : Bool := false
  scheduleBackgroundExtraction : Bool := false
  refreshSessionState : Bool := false
  sessionStatusHint : String
  matchedStopHooks : List String := []
  deriving DecidableEq

structure TurnTerminal where
  reason : TurnTerminalReason
  usage : Fields := []
  requestId : Option String := none
  error : Option String := none
  abortReason : Option String := none
  providerStopReason : Option String := none
  transition : TurnTransition
  postEffects : TurnPostEffects
  metadata : Fields := []

def turnTerminalReason (decision : RecoveryDecision M) : TurnTerminalReason :=
  match decision.terminalReason with
  | none => .endTurn
  | some text => (TurnTerminalReason.ofValue text).getD .error

def turnTransitionReason (decision : RecoveryDecision M)
    (input : NormalizedRecoveryInput) : TurnTransitionReason :=
  if decision.reason = "stop_hook_blocking" then .stopHookBlocking
  else if input.maxTurnsExhausted then .maxTurnsExhausted
  else if input.toolExecutorUnavailable then .toolExecutorUnavailable
  else if input.interrupted then .attemptInterrupted
  else if input.terminalFailure then .attemptError
  else if decision.action = .continueSameTurn then .nextTurn
  else .attemptCompleted

/-- `_turn_transition_from_recovery`; `stopOwners` are those of the stop
phase, where there was one. -/
def turnTransition (decision : RecoveryDecision M)
    (input : NormalizedRecoveryInput) (stopOwners : List String)
    (prepared : PreparedSummary) : TurnTransition :=
  let metadata := if stopOwners = [] then decision.metadata
    else setDefault decision.metadata "matched_hooks"
      (.list (stopOwners.map PyVal.str))
  { reason := turnTransitionReason decision input
    recoveryAction := decision.action
    nextPhase := if decision.action = .halt then .terminal else .prepare
    metadata := setDefault
      (setDefault metadata "context_generation" (.int prepared.generation))
      "context_effect_kinds" (.list (prepared.effectKinds.map PyVal.str)) }

def turnPostEffects (reason : TurnTerminalReason)
    (matchedStopHooks : List String) : TurnPostEffects :=
  match reason with
  | .endTurn | .messageStop =>
    { persistMemory := true, scheduleBackgroundExtraction := true
      refreshSessionState := true, sessionStatusHint := "ready"
      matchedStopHooks := matchedStopHooks }
  | .blocked =>
    { refreshSessionState := true, sessionStatusHint := "waiting"
      matchedStopHooks := matchedStopHooks }
  | .interrupted =>
    { sessionStatusHint := "interrupted"
      matchedStopHooks := matchedStopHooks }
  | _ =>
    { sessionStatusHint := "ready", matchedStopHooks := matchedStopHooks }

@[simp] theorem turnPostEffects_matchedStopHooks (reason : TurnTerminalReason)
    (owners : List String) :
    (turnPostEffects reason owners).matchedStopHooks = owners := by
  cases reason <;> rfl

def RequestOverrideState.serialize (o : RequestOverrideState) : PyVal :=
  let text (value : Option String) : PyVal :=
    match value with
    | some s => .str s
    | none => .none
  .dict
    [(.str "requested_model", text o.requestedModel),
     (.str "requested_effort", o.requestedEffort),
     (.str "requested_model_route", text o.requestedModelRoute),
     (.str "invocation_mode_override", o.invocationModeOverride),
     (.str "max_output_tokens_override",
       match o.maxOutputTokensOverride with
       | some tokens => .int tokens
       | none => .none),
     (.str "source", text o.source),
     (.str "field_sources",
       .dict (o.fieldSources.map fun e => (.str e.1, .str e.2))),
     (.str "resumable", .bool o.resumable),
     (.str "metadata", .dict (setField o.metadata (.str "sources")
       (.list (o.sources.map PyVal.str))))]

def resumableOverride (decision : RecoveryDecision M)
    (privateContext : PrivateContext)
    (consumed : Option RequestOverrideState) : Option RequestOverrideState :=
  ((RequestOverrideState.resumableOnly decision.requestOverride).or
    (if decision.terminalReason = some "end_turn"
        ∨ decision.terminalReason = some "message_stop" then none
      else RequestOverrideState.resumableOnly consumed)).or
    (RequestOverrideState.resumableOnly privateContext.pendingOverride)

def turnTerminalFromAttempt (attempt : AttemptFinished)
    (reason : TurnTerminalReason) (transition : TurnTransition)
    (postEffects : TurnPostEffects) (metadata : Fields) : TurnTerminal :=
  let combined := updateFields attempt.metadata metadata
  { reason := reason
    usage := attempt.usage
    requestId := attempt.requestId
    error := attempt.error
    abortReason := attempt.abortReason
    providerStopReason := attempt.attemptStopReason
    transition := transition
    postEffects := postEffects
    metadata := match attempt.attemptStopReason with
      | some text =>
        if text = reason.value then combined
        else setDefault combined "attempt_stop_reason" (.str text)
      | none => combined }

/-- The terminal of an exception that left the loop. -/
def errorTerminal (lastAttempt : Option AttemptFinished) (error : String) :
    TurnTerminal :=
  { reason := .error
    usage := match lastAttempt with
      | some attempt => attempt.usage
      | none => []
    requestId := lastAttempt.bind AttemptFinished.requestId
    error := some error
    abortReason := lastAttempt.bind AttemptFinished.abortReason
    providerStopReason := lastAttempt.bind AttemptFinished.attemptStopReason
    transition :=
      { reason := .attemptError, recoveryAction := .halt
        nextPhase := .terminal
        metadata := [(.str "unhandled_exception", .bool true)] }
    postEffects := turnPostEffects .error []
    metadata := [(.str "unhandled_exception", .bool true)] }

end WeaveRuntime.TurnEngine
