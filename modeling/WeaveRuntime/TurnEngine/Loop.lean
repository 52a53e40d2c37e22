/-
The turn loop: what `_run_turn_stream_impl` does from one model request
to the next.

One iteration prepares the context, composes and issues a request, lets
the model attempt run, and decides what follows: after tool calls once
they are answered, otherwise after the stop phase and the recovery hooks.
An exception anywhere in it is the end of the turn.

# What is a parameter

`Collaborators` is what the loop calls: the context control plane and its
sidecars, the prompt and request composition, the model, the tools. They
act on a world of their own and may raise. `Hooks` is what is registered
at the hook bus: for a dispatch, the registrations that match and how
their handlers end. What the model call and the tools dispatch while they
run they dispatch through the same bus, as a resumption; where no effect
comes back to them they are told nothing (`toolAnswer`): the tool runtime
looks at who matched only where an effect blocks or answers a call.

# What is kept

The events are those that carry a request, a message or the end. A
message is committed by appending it to the working messages and
yielding it.
-/
import WeaveRuntime.TurnEngine.Terminal
import WeaveRuntime.Lib.Resumption

namespace WeaveRuntime.TurnEngine

open Lib Python
open Jobs (Fields setField updateFields)

-- ====== the parameters

/-- What `ContextControlPlane.prepare` returns. -/
structure PreparedContext (M : Type) where
  activeMessages : List M
  transcriptMessages : Option (List M) := none
  summaryId : Option String := none

/-- What is left of a model call when its stream has ended. -/
structure ModelAttempt (M : Type) where
  /-- The message of `assistant_blocks`, where there are any. -/
  assistantMessage : Option M := none
  toolCalls : List ToolCall := []
  terminal : ModelTerminalMetadata := {}

/-- What `tool_executor.finalize` comes to. -/
structure ToolReplay (M : Type) where
  toolMessage : Option M := none
  injectedMessages : List M := []
  requestOverride : Option SkillRequestOverrideState := none

/-- The dispatches of a turn, with what their payloads show. -/
inductive HookPayload (M Q : Type) where
  | preCompact (messages : List M)
  | postCompact (summaryId : String)
  | userPromptSubmit (messages : List M)
  | preContextAssemble (activeMessages : List M)
  | postContextAssemble (generation : Nat)
  | preModelRequest (request : Q)
  | postModelResponse (attempt : AttemptFinished)
  | stop (reason : String)
  | recoveryDecision (attemptIndex : Nat) (input : NormalizedRecoveryInput)
      (candidate : RecoveryAction)
  /-- What is dispatched while tools run. -/
  | tool (phase : String) (payload : PyVal)

def HookPayload.atStop {M Q : Type} : HookPayload M Q → Bool
  | .stop _ => true
  | .tool phase _ => phase = "Stop"
  | _ => false

/-- What is registered at the hook bus, on a state of its own. -/
structure Hooks (B M Q : Type) where
  dispatch : HookPayload M Q → Method B String (List (HookMatch M))

/-- What a running tool is told: the matches, if an effect came back. -/
def toolAnswer {M : Type} (calls : List (HookMatch M)) :
    Option (List (HookMatch M)) :=
  if calls.all HookMatch.quiet then none else some calls

/-- A computation that may dispatch hooks while it runs. -/
abbrev Asking (W M Q A : Type) :=
  Resumption (HookPayload M Q)
    (Except String (Option (List (HookMatch M)))) (Except String A × W)

structure Collaborators (W M Q : Type) where
  prepare : List M → PrivateContext → Method W String (PreparedContext M)
  /-- Sidecars, route and skill pool, with what they put into the private
  context. -/
  joinSidecars : PrivateContext → Method W String PrivateContext
  /-- The private context with the runtime's own metadata merged in. -/
  effective : W → PrivateContext → PrivateContext
  /-- The prompt context, with the hooks' context. -/
  buildPrompt : List String → Method W String PreparedSummary
  rebuildPrompt : List String → Method W String PreparedSummary
  compose : List M → PrivateContext → Option RequestOverrideState →
    Method W String Q
  /-- The request with the pending override, and whether a tool executor
  was selected for it. -/
  finishRequest : Q → Option RequestOverrideState →
    Method W String (Q × Bool)
  attempt : Q → W → Asking W M Q (ModelAttempt M)
  /-- `_classify_recovery_with_context_window_hints`. -/
  hinted : W → AttemptFinished → Option (FailureClassification × Option Bool)
  /-- `_recovery_continuation_message`. -/
  continuation : W → M
  /-- The abort signal of the attempt. -/
  abortReason : W → Option String
  finalize : List ToolCall → W → Asking W M Q (ToolReplay M)

-- =========== the state

inductive TurnStreamEvent (M Q : Type) where
  | compaction (compactedMessages : List M)
  | requestStart (request : Q)
  | message (message : M)
  | attemptFinished (attempt : AttemptFinished)
  | terminal (terminal : TurnTerminal)

/-- The local variables of the loop, with the world it runs in and the
events it has yielded. -/
structure TurnLoopState (W M Q : Type) where
  world : W
  workingMessages : List M
  iteration : Nat := 0
  recoveryState : RecoveryState := {}
  privateContext : PrivateContext := {}
  consumedRequestOverride : Option RequestOverrideState := none
  lastAttempt : Option AttemptFinished := none
  dispatchCounter : Nat := 0
  events : List (TurnStreamEvent M Q) := []
  terminal : Option TurnTerminal := none

/-- The loop together with the hook bus. -/
structure TurnRun (B W M Q : Type) where
  loop : TurnLoopState W M Q
  bus : B

/-- The attempt as the rest of the iteration sees it. -/
structure Settled (M : Type) where
  prepared : PreparedSummary
  attempt : AttemptFinished
  toolCalls : List ToolCall
  executor : Bool

variable {B W M Q : Type}

abbrev TurnM (B W M Q A : Type) := Method (TurnRun B W M Q) String A

-- =========== the steps

namespace TurnRun

def modify (f : TurnLoopState W M Q → TurnLoopState W M Q) :
    TurnM B W M Q Unit :=
  Method.write fun s => { s with loop := f s.loop }

def get {A : Type} (f : TurnLoopState W M Q → A) : TurnM B W M Q A :=
  Method.read fun s => f s.loop

def emit (event : TurnStreamEvent M Q) : TurnM B W M Q Unit :=
  modify fun l => { l with events := l.events ++ [event] }

/-- A call of a collaborator. -/
def call {A : Type} (m : Method W String A) : TurnM B W M Q A :=
  Method.within (fun s => s.loop.world)
    (fun s w => { s with loop := { s.loop with world := w } }) id m

/-- Append messages to the working messages and yield them. -/
def commit (messages : List M) : TurnM B W M Q Unit :=
  modify fun l =>
    { l with
      workingMessages := l.workingMessages ++ messages
      events := l.events ++ messages.map TurnStreamEvent.message }

section Hooked

variable (hooks : Hooks B M Q) (env : Collaborators W M Q)

/-- The registrations that match, each with its handler run. -/
def matching (payload : HookPayload M Q) :
    TurnM B W M Q (List (HookMatch M)) := do
  let calls ← Method.within (fun s : TurnRun B W M Q => s.bus)
    (fun s b => { s with bus := b }) id (hooks.dispatch payload)
  modify fun l => { l with dispatchCounter := l.dispatchCounter + 1 }
  pure calls

def dispatch (payload : HookPayload M Q) :
    TurnM B W M Q (HookDispatchResult M) := do
  let calls ← matching hooks payload
  let dispatchId ← get TurnLoopState.dispatchCounter
  pure (dispatchResult payload.atStop dispatchId calls)

def dispatchTool (payload : HookPayload M Q) :
    TurnM B W M Q (Option (List (HookMatch M))) := do
  let calls ← matching hooks payload
  pure (toolAnswer calls)

/-- Run a computation that may dispatch hooks on the way. -/
def asking {A : Type} (m : W → Asking W M Q A) : TurnM B W M Q A := do
  let world ← get TurnLoopState.world
  let outcome ← (m world).run (dispatchTool hooks)
  modify fun l => { l with world := outcome.2 }
  Method.lift outcome.1

-- ========= the request

def announceCompaction (summaryId : Option String) : TurnM B W M Q Unit :=
  match summaryId with
  | none => pure ()
  | some id => do
    let _ ← dispatch hooks (.postCompact id)
    pure ()

def commitCompaction (prepared : PreparedContext M) : TurnM B W M Q Unit :=
  match prepared.transcriptMessages with
  | none => pure ()
  | some messages => do
    modify fun l => { l with workingMessages := messages }
    announceCompaction hooks prepared.summaryId
    emit (.compaction messages)

def prepareContext : TurnM B W M Q (PreparedContext M) := do
  let messages ← get TurnLoopState.workingMessages
  let _ ← dispatch hooks (.preCompact messages)
  let privateContext ← get TurnLoopState.privateContext
  let prepared ← call (env.prepare messages privateContext)
  commitCompaction hooks prepared
  modify fun l =>
    { l with privateContext := l.privateContext.clearTransientFlags }
  pure prepared

/-- `PostContextAssemble` may add to the prompt context. -/
def refinePrompt (prepared : PreparedSummary) (additional : List String) :
    TurnM B W M Q PreparedSummary :=
  if additional = [] then pure prepared else call (env.rebuildPrompt additional)

/-- The request of the iteration, before it is issued. -/
def buildRequest : TurnM B W M Q (Q × Bool × PreparedSummary) := do
  let prepared ← prepareContext hooks env
  let privateContext ← get TurnLoopState.privateContext
  let privateContext ← call (env.joinSidecars privateContext)
  modify fun l => { l with privateContext := privateContext }
  let messages ← get TurnLoopState.workingMessages
  let userPrompt ← dispatch hooks (.userPromptSubmit messages)
  let preContext ←
    dispatch hooks (.preContextAssemble prepared.activeMessages)
  let built ← call (env.buildPrompt
    (preContext.additionalContext ++ userPrompt.additionalContext))
  let postContext ← dispatch hooks (.postContextAssemble built.generation)
  let summary ← refinePrompt env built postContext.additionalContext
  let effective ← get fun l => env.effective l.world l.privateContext
  let pending := RequestOverrideState.merge effective.pendingOverride
    (RequestOverrideState.coerce postContext.requestOverride)
  let request ← call (env.compose messages effective pending)
  let preModel ← dispatch hooks (.preModelRequest request)
  let pending := RequestOverrideState.merge pending preModel.requestOverride
  let finished ← call (env.finishRequest request pending)
  modify fun l => { l with consumedRequestOverride := pending }
  pure (finished.1, finished.2, summary)

-- ========= the attempt

def clearConsumed (l : TurnLoopState W M Q) : TurnLoopState W M Q :=
  match l.consumedRequestOverride with
  | none => l
  | some _ =>
    { l with
      privateContext := l.privateContext.clearOverride
      recoveryState := l.recoveryState.clearPendingOverride }

def attemptFinished (iteration : Nat) (model : ModelAttempt M) :
    AttemptFinished where
  iteration := iteration
  requestId := model.terminal.requestId
  attemptStopReason := model.terminal.stopReason
  usage := model.terminal.usage
  error := model.terminal.error
  abortReason := model.terminal.abortReason
  producedToolCalls := !model.toolCalls.isEmpty
  toolCallCount := model.toolCalls.length
  metadata := model.terminal.metadata

def applyPostModel (result : HookDispatchResult M) : TurnM B W M Q Unit := do
  modify fun l =>
    match result.requestOverride with
    | none => l
    | some o => { l with privateContext := l.privateContext.applyOverride o }
  commit result.injectedMessages

def finishAttempt (request : Q) (executor : Bool)
    (prepared : PreparedSummary) : TurnM B W M Q (Settled M) := do
  modify clearConsumed
  let model ← asking hooks (env.attempt request)
  let attempt ← get fun l => attemptFinished l.iteration model
  modify fun l => { l with lastAttempt := some attempt }
  commit model.assistantMessage.toList
  emit (.attemptFinished attempt)
  let postModel ← dispatch hooks (.postModelResponse attempt)
  applyPostModel postModel
  pure
    { prepared := prepared, attempt := attempt
      toolCalls := model.toolCalls, executor := executor }

/-- Issue the request, and let the attempt run to its end. -/
def runAttempt (request : Q) (executor : Bool) (prepared : PreparedSummary) :
    TurnM B W M Q (Settled M) := do
  emit (.requestStart request)
  finishAttempt hooks env request executor prepared

-- ==== what comes after

/-- The last event of the turn. -/
def finish (terminal : TurnTerminal) : TurnM B W M Q Unit :=
  modify fun l =>
    { l with
      terminal := some terminal
      events := l.events ++ [.terminal terminal] }

/-- The terminal of a decision to halt; `blocked` is what the metadata of
a blocked terminal says in addition. -/
def haltTerminal (l : TurnLoopState W M Q) (settled : Settled M)
    (input : NormalizedRecoveryInput) (decision : RecoveryDecision M)
    (stopOwners : List String) (blocked : Fields) : TurnTerminal :=
  let metadata := updateFields
    (updateFields decision.metadata settled.prepared.eventMetadata) blocked
  turnTerminalFromAttempt settled.attempt (turnTerminalReason decision)
    (turnTransition decision input stopOwners settled.prepared)
    (turnPostEffects (turnTerminalReason decision) stopOwners)
    (match resumableOverride decision l.privateContext
        l.consumedRequestOverride with
      | none => metadata
      | some o => setField metadata (.str "resumable_request_override")
          o.serialize)

def applyDecision (c : PrivateContext) (decision : RecoveryDecision M) :
    PrivateContext :=
  let updated := match decision.requestOverride with
    | none => c
    | some o => c.applyOverride o
  if decision.action = .compactAndRetry then
    { updated with forceCompaction := true }
  else updated

/-- The turn goes on with another iteration. -/
def goOn (decision : RecoveryDecision M) : TurnM B W M Q Unit := do
  modify fun l =>
    { l with privateContext := applyDecision l.privateContext decision }
  commit decision.injectedMessages

def blockedMetadata (decision : RecoveryDecision M)
    (stopOwners : List String) : Fields :=
  if turnTerminalReason decision = .blocked then
    [(.str "continuation_blocked", .bool true),
     (.str "matched_hooks", .list (stopOwners.map PyVal.str))]
  else []

/-- The decision is counted, and halts the turn or goes on. -/
def conclude (settled : Settled M) (input : NormalizedRecoveryInput)
    (stopOwners : List String) (decision : RecoveryDecision M) :
    TurnM B W M Q Unit := do
  modify fun l =>
    { l with recoveryState := l.recoveryState.afterDecision input decision }
  if decision.action = .halt then do
    let terminal ← get fun l => haltTerminal l settled input decision
      stopOwners (blockedMetadata decision stopOwners)
    finish terminal
  else goOn decision

/-- What the stop phase leaves to `conclude`. -/
structure StopPhase (M : Type) where
  stop : HookDispatchResult M
  input : NormalizedRecoveryInput
  /-- The policy's decision, and what the recovery hooks returned. -/
  candidate : RecoveryDecision M
  hook : HookDispatchResult M

variable (policy : RecoveryPolicy)

/-- The stop phase of an attempt without tool calls: the hooks, and the
policy's decision between them. -/
def stopPhase (settled : Settled M) : TurnM B W M Q (StopPhase M) := do
  let stop ← dispatch hooks
    (.stop ((textOr settled.attempt.attemptStopReason
      (some "completed")).getD "completed"))
  let input ← get fun l => normalizeAttemptOutcome
    (env.hinted l.world settled.attempt) settled.attempt false false
  let candidate ← get fun l => policy.evaluate (env.continuation l.world)
    l.recoveryState input (some (stopPhaseOutcome stop)) settled.prepared
  let iteration ← get TurnLoopState.iteration
  let hook ← dispatch hooks
    (.recoveryDecision iteration input candidate.action)
  pure { stop := stop, input := input, candidate := candidate, hook := hook }

/-- A halt after tool calls that are not answered: the attempt was
aborted, or there is no executor. -/
def haltUnanswered (settled : Settled M) (unavailable : Bool) :
    TurnM B W M Q Unit := do
  let input ← get fun l => normalizeAttemptOutcome
    (env.hinted l.world settled.attempt) settled.attempt false unavailable
  let decision ← get fun l => policy.evaluate (env.continuation l.world)
    l.recoveryState input none settled.prepared
  modify fun l =>
    { l with recoveryState := l.recoveryState.afterDecision input decision }
  let terminal ← get fun l => haltTerminal l settled input decision []
    (if unavailable then
      [(.str "continuation_blocked", .bool true),
       (.str "tool_executor_unavailable", .bool true)]
    else [])
  finish terminal

def applySkillOverride (override : Option SkillRequestOverrideState)
    (l : TurnLoopState W M Q) : TurnLoopState W M Q :=
  match override with
  | none => l
  | some o =>
    { l with
      privateContext := l.privateContext.applyOverride
        (o.toRequest.getD {}) }

/-- The decision after the tools is counted, their messages are committed,
and the turn halts or goes on. -/
def settleReplay (settled : Settled M) (input : NormalizedRecoveryInput)
    (decision : RecoveryDecision M) (messages : List M) :
    TurnM B W M Q Unit := do
  modify fun l =>
    { l with recoveryState := l.recoveryState.afterDecision input decision }
  commit messages
  if decision.action = .halt then do
    let terminal ← get fun l => haltTerminal l settled input decision [] []
    finish terminal
  else goOn decision

/-- The tool calls are answered, and the policy decides. The limit on the
iterations is tested here. -/
def replayTools (maxIterations : Nat) (settled : Settled M) :
    TurnM B W M Q Unit := do
  let replay ← asking hooks (env.finalize settled.toolCalls)
  modify (applySkillOverride replay.requestOverride)
  let input ← get fun l => normalizeAttemptOutcome
    (env.hinted l.world settled.attempt) settled.attempt
    (decide (maxIterations ≤ l.iteration)) false
  let decision ← get fun l => policy.evaluate (env.continuation l.world)
    l.recoveryState input none settled.prepared
  settleReplay settled input decision
    (replay.toolMessage.toList ++ replay.injectedMessages)

def afterTools (maxIterations : Nat) (settled : Settled M) :
    TurnM B W M Q Unit := do
  let abortReason ← get fun l => env.abortReason l.world
  if abortReason.isSome && !toolFailureAbort abortReason then
    haltUnanswered env policy settled false
  else if !settled.executor then haltUnanswered env policy settled true
  else replayTools hooks env policy maxIterations settled

-- ======= the iteration

def attempt : TurnM B W M Q (Settled M) := do
  modify fun l => { l with iteration := l.iteration + 1 }
  let built ← buildRequest hooks env
  runAttempt hooks env built.1 built.2.1 built.2.2

def afterAttempt (maxIterations : Nat) (settled : Settled M) :
    TurnM B W M Q Unit :=
  if settled.toolCalls.isEmpty then do
    let p ← stopPhase hooks env policy settled
    conclude settled p.input p.stop.matchedOwners
      (applyRecoveryHookResult p.candidate p.hook p.input)
  else afterTools hooks env policy maxIterations settled

def decisionPoint : TurnM B W M Q (Option (StopPhase M)) := do
  let settled ← attempt hooks env
  if settled.toolCalls.isEmpty then do
    let p ← stopPhase hooks env policy settled
    pure (some p)
  else pure none

def iterate (maxIterations : Nat) : TurnM B W M Q Unit := do
  let settled ← attempt hooks env
  afterAttempt hooks env policy maxIterations settled

/-- `except Exception`: the turn ends in an error. -/
def failed (error : String) : TurnM B W M Q Unit := do
  let terminal ← get fun l => errorTerminal l.lastAttempt error
  finish terminal

/-- One iteration of the loop, unless the turn has ended. -/
def step (maxIterations : Nat) (s : TurnRun B W M Q) : TurnRun B W M Q :=
  if s.loop.terminal.isSome then s
  else ((Method.tryExcept (iterate hooks env policy maxIterations)
    failed).run s).2

def after (maxIterations : Nat) : Nat → TurnRun B W M Q → TurnRun B W M Q
  | 0, s => s
  | n + 1, s => step hooks env policy maxIterations
      (after maxIterations n s)

end Hooked

end TurnRun

def maxIterations (maxTurns : Option Nat) : Nat :=
  match maxTurns with
  | some n => if n = 0 then 8 else n
  | none => 8

end WeaveRuntime.TurnEngine
