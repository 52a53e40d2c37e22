/-
One resolved tool call from its start to its outcome: the boundary
around a tool (tool_runtime.py, `execute_resolved_tool_call`) and the
outcome the orchestrator builds from what comes back
(tool_orchestration.py, `_classify_result`, `_build_outcome`,
`_synthetic_outcome`).

# What the environment chooses

A tool, the hooks around it and the file system are the environment's.
A `ToolRun` says what one execution of a tool body did: how
`definition.execute` ended, how the post-tool hook dispatch ended, how
the failure hook dispatch ended. `conflictKey` is `FileState.conflict_key`,
which resolves a path against the file system and may raise. Everything
else is computed as the code computes it.

# How a call can end

`executeResolvedToolCall` has three exits (`Exit`): a result, a
`CancelledError` that leaves it, or another exception that leaves it.
The boundary turns an exception of the tool or of the post-tool hook
into an error result, but it dispatches the failure hook OUTSIDE of any
handler, so what that dispatch raises leaves the boundary.

`buildOutcome` may fail too: it reads `int(output["exit_code"])` of a
successful result under the exit-code classifier, and it resolves the
target paths of a successful result. `Escapes` collects these cases by
their causes, and `settleRun_eq_none_iff` shows that they are all the
ways a started call ends without an outcome.
-/
import WeaveRuntime.Python.Value
import WeaveRuntime.Tools.Lifecycle

namespace WeaveRuntime.Tools

open Python

-- ========= definitions

inductive InterruptBehavior where
  | cancel
  | block
  deriving DecidableEq, Repr

inductive ToolFailureMode where
  | reportOnly
  | errorResult
  | fatal
  deriving DecidableEq, Repr

inductive ToolFailureClassifier where
  | exceptionOnly
  | nonzeroExitOrException
  | custom
  deriving DecidableEq, Repr

structure ToolFailurePolicy where
  failureMode : ToolFailureMode := .reportOnly
  resultClassifier : ToolFailureClassifier := .exceptionOnly
  cancelRunningSiblings : Bool := false
  blockQueuedSiblings : Bool := false
  abortModelStream : Bool := false
  surfacedStatus : ToolCallStatus := .error
  deriving DecidableEq, Repr

/-- The part of a classifier input the orchestrator reads. -/
structure ToolClassifierInput where
  targetPaths : List String := []
  deriving DecidableEq, Repr

structure ResolvedToolExecutionSemantics where
  readOnly : Bool
  concurrencySafe : Bool
  interruptBehavior : InterruptBehavior := .block
  failurePolicy : ToolFailurePolicy := {}
  classifierInput : Option ToolClassifierInput := none
  deriving DecidableEq, Repr

/-- The part of a tool definition the boundary reads. -/
structure ToolDefinition where
  name : String
  hasExecute : Bool := true
  interruptBehavior : InterruptBehavior := .block
  deriving DecidableEq, Repr

inductive ResolvedPermissionDecision where
  | allowed
  | denied (deniedStatus : ToolCallStatus) (message : String)
  deriving DecidableEq, Repr

structure ToolCallEnvelope where
  toolUseId : String
  sequenceIndex : Nat
  rawToolName : String
  assistantMessageId : String
  deriving DecidableEq, Repr

structure ResolvedToolCall where
  envelope : ToolCallEnvelope
  resolutionStatus : ToolResolutionStatus
  canonicalToolName : Option String
  toolDefinition : Option ToolDefinition
  resolvedSemantics : Option ResolvedToolExecutionSemantics
  permissionDecision : Option ResolvedPermissionDecision
  schedulerLane : Option ToolSchedulerLane
  replayIndex : Nat
  deriving DecidableEq, Repr

def ResolvedToolCall.toolUseId (call : ResolvedToolCall) : String :=
  call.envelope.toolUseId

def ResolvedToolCall.displayName (call : ResolvedToolCall) : String :=
  match call.canonicalToolName with
  | some name => if name = "" then call.envelope.rawToolName else name
  | none => call.envelope.rawToolName

structure ToolCallResult where
  callId : String
  toolName : String
  status : ToolCallStatus
  output : PyVal := .none
  error : PyVal := .none

structure ToolResultBlock where
  toolUseId : String
  content : PyVal
  isError : Bool

/-- The context update the orchestrator derives itself. -/
structure FileObservationRecorded where
  observationKind : String
  path : String
  conflictKey : String
  deriving DecidableEq, Repr

structure ToolOutcome where
  resolvedCall : ResolvedToolCall
  status : ToolCallStatus
  terminalReason : PyVal
  rawOutput : PyVal := .none
  errorMessage : PyVal
  resultBlock : ToolResultBlock
  contextUpdates : List FileObservationRecorded := []
  completionIndex : Nat
  replayIndex : Nat
  replayEligible : Bool := true

-- ==== the tool boundary

/-- What a tool's `execute` gave back: a finished `ToolCallResult`, an
`ExecutionResult`, or any other value. -/
inductive RawOutput where
  | result (r : ToolCallResult)
  | execution (succeeded : Bool) (value error : PyVal)
  | value (v : PyVal)

/-- How `await definition.execute(...)` ended. -/
inductive ToolBehaviour where
  | returns (raw : RawOutput)
  | raises (message : String)
  | cancelled

/-- How one `_dispatch_hook` ended. -/
inductive HookDispatch where
  | proceeds
  | blocks
  | raises (message : String)
  | cancelled
  deriving DecidableEq, Repr

/-- What the environment did during one execution of a tool body. -/
structure ToolRun where
  execute : ToolBehaviour
  postHook : HookDispatch := .proceeds
  failureHook : HookDispatch := .proceeds

/-- The ways a coroutine body ends. -/
inductive Exit (α : Type u) where
  | value (a : α)
  | cancelledError
  | exception (message : String)

def mapToolOutput (toolName callId : String) : RawOutput → ToolCallResult
  | .result r => r
  | .execution succeeded value error =>
    { callId := callId, toolName := toolName
      status := if succeeded then .success else .error
      output := value, error := error }
  | .value v =>
    { callId := callId, toolName := toolName, status := .success, output := v }

/-- `f"..."` fallbacks of an interrupt reason: `reason or default`. -/
def orDefault (reason : Option String) (default : String) : String :=
  match reason with
  | some r => if r = "" then default else r
  | none => default

/-- The results `execute_resolved_tool_call` gives before it calls the
tool: no definition, an interrupt already requested, no handler. -/
def preflight (call : ResolvedToolCall) (interruptReason : Option String) :
    Option ToolCallResult :=
  match call.toolDefinition with
  | none =>
    some { callId := call.toolUseId, toolName := call.displayName
           status := .error
           error := .str "Resolved tool call is missing a definition" }
  | some definition =>
    let interruptBehavior :=
      match call.resolvedSemantics with
      | some semantics => semantics.interruptBehavior
      | none => definition.interruptBehavior
    if interruptReason.isSome && interruptBehavior = .cancel then
      some { callId := call.toolUseId, toolName := definition.name
             status := .cancelled
             error := .str (orDefault interruptReason
               "Tool execution interrupted") }
    else if !definition.hasExecute then
      some { callId := call.toolUseId, toolName := definition.name
             status := .error
             error := .str ("Tool '" ++ definition.name
               ++ "' has no execution handler") }
    else none

/-- The tool name results of the tool body carry. -/
def ResolvedToolCall.definitionName (call : ResolvedToolCall) : String :=
  match call.toolDefinition with
  | some definition => definition.name
  | none => call.displayName

/-- The `except Exception` arm: the failure hook is dispatched first, and
what its dispatch raises is not caught. -/
def failedResult (call : ResolvedToolCall) (run : ToolRun)
    (message : String) : Exit ToolCallResult :=
  match run.failureHook with
  | .raises hookMessage => .exception hookMessage
  | .cancelled => .cancelledError
  | _ =>
    .value { callId := call.toolUseId, toolName := call.definitionName
             status := .error, error := .str message }

def cancelledResult (call : ResolvedToolCall) : ToolCallResult :=
  { callId := call.toolUseId, toolName := call.definitionName
    status := .cancelled, error := .str "Tool execution cancelled" }

def executeResolvedToolCall (call : ResolvedToolCall) (run : ToolRun) :
    Exit ToolCallResult :=
  match run.execute with
  | .cancelled => .value (cancelledResult call)
  | .raises message => failedResult call run message
  | .returns raw =>
    match run.postHook with
    | .cancelled => .value (cancelledResult call)
    | .raises message => failedResult call run message
    | .blocks =>
      .value { callId := call.toolUseId, toolName := call.definitionName
               status := .denied
               error := .str "Tool result blocked by runtime hook" }
    | .proceeds =>
      .value (mapToolOutput call.definitionName call.toolUseId raw)

-- ==== building an outcome

/-- Write a string key of a mapping, in place when present. -/
def setKey (items : List (PyKey × PyVal)) (key : String) (v : PyVal) :
    List (PyKey × PyVal) :=
  if items.any fun e => e.1 = .str key then
    items.map fun e => if e.1 = .str key then (.str key, v) else e
  else items ++ [(.str key, v)]

/-- `{str(key): value for key, value in payload.items()}`. -/
def stringKeys (items : List (PyKey × PyVal)) : List (PyKey × PyVal) :=
  items.foldl (fun acc e => setKey acc e.1.text e.2) []

def coerceReplayPayload : PyVal → PyVal
  | .dict items =>
    let normalized := stringKeys items
    match lookupKey normalized "artifact_ref" with
    | none => .dict normalized
    | some .none => .dict normalized
    | some ref =>
      let withRef := setKey normalized "artifact_ref" (.str (pyStr ref))
      .dict (match lookupKey withRef "kind" with
        | some _ => withRef
        | none => setKey withRef "kind" (.str "tool_result_spillover"))
  | v => v

def toolResultBlock (result : ToolCallResult) : ToolResultBlock :=
  { toolUseId := result.callId
    content :=
      match result.output with
      | .dict items => coerceReplayPayload (.dict items)
      | output =>
        if result.status = .success then coerceReplayPayload output
        else pyOr result.error (.str "")
    isError := result.status ≠ .success }

def classifyResult (result : ToolCallResult) (call : ResolvedToolCall) :
    Option ToolCallResult :=
  match call.resolvedSemantics with
  | none => some result
  | some semantics =>
    if result.status ≠ .success then some result
    else if semantics.failurePolicy.resultClassifier
        ≠ .nonzeroExitOrException then some result
    else
      match result.output with
      | .dict output =>
        match pyInt ((lookupKey output "exit_code").getD (.int 0)) with
        | none => none
        | some code =>
          if code = 0 then some result
          else some { result with
            status := semantics.failurePolicy.surfacedStatus
            error := pyOr ((lookupKey output "stderr").getD .none)
              (pyOr ((lookupKey output "stdout").getD .none)
                (.str "Tool execution failed")) }
      | _ => some result

/-- The paths a call's classifier input names. -/
def targetPaths (semantics : ResolvedToolExecutionSemantics) : List String :=
  match semantics.classifierInput with
  | none => []
  | some input => input.targetPaths

section Environment

/-! `FileState.conflict_key`: `str(Path(path).resolve())`, or `none` where
resolving the path raises. -/

variable (conflictKey : String → Option String)

def derivedContextUpdates (call : ResolvedToolCall) (result : ToolCallResult) :
    Option (List FileObservationRecorded) :=
  if result.status ≠ .success then some []
  else
    match call.resolvedSemantics with
    | none => some []
    | some semantics =>
      (targetPaths semantics).mapM fun path =>
        (conflictKey path).map fun key =>
          { observationKind := if semantics.readOnly then "read"
              else "write_commit"
            path := path, conflictKey := key }

/-- `_build_outcome`: the outcome, or `none` where it raises, and the
completion counter, which classification precedes and the derived
updates follow. -/
def buildOutcome (call : ResolvedToolCall) (result : ToolCallResult)
    (completionIndex : Nat) : Option ToolOutcome × Nat :=
  match classifyResult result call with
  | none => (none, completionIndex)
  | some classified =>
    ((derivedContextUpdates conflictKey call classified).map fun updates =>
      { resolvedCall := call, status := classified.status
        terminalReason := classified.error, rawOutput := classified.output
        errorMessage := classified.error
        resultBlock := toolResultBlock classified
        contextUpdates := updates
        completionIndex := completionIndex
        replayIndex := call.replayIndex },
     completionIndex + 1)

def emptyResult (call : ResolvedToolCall) (status : ToolCallStatus)
    (error : String) : ToolCallResult :=
  { callId := call.toolUseId, toolName := call.displayName, status := status
    error := .str error }

/-- An outcome that carries no output: a cancelled or a non-executable
call's. -/
def bareOutcome (call : ResolvedToolCall) (status : ToolCallStatus)
    (error : String) (completionIndex : Nat) : ToolOutcome :=
  { resolvedCall := call, status := status, terminalReason := .str error
    errorMessage := .str error
    resultBlock := toolResultBlock (emptyResult call status error)
    completionIndex := completionIndex, replayIndex := call.replayIndex }

/-- The outcome of the `except CancelledError` arm of a scheduled call. -/
def cancelledOutcome (call : ResolvedToolCall) (completionIndex : Nat) :
    ToolOutcome :=
  bareOutcome call .cancelled "Tool execution cancelled" completionIndex

def syntheticOutcome (call : ResolvedToolCall) (completionIndex : Nat) :
    ToolOutcome :=
  match call.resolutionStatus with
  | .denied =>
    match call.permissionDecision with
    | some (.denied status message) =>
      bareOutcome call status message completionIndex
    | _ => bareOutcome call .denied "Tool use denied" completionIndex
  | _ =>
    bareOutcome call .error
      ("Invalid tool call: " ++ call.envelope.rawToolName) completionIndex

/-- What a scheduled call makes of one tool run: its outcome, or `none`
where an exception leaves the call's task. -/
def settleRun (call : ResolvedToolCall) (run : ToolRun)
    (completionIndex : Nat) : Option ToolOutcome × Nat :=
  match executeResolvedToolCall call run with
  | .value result => buildOutcome conflictKey call result completionIndex
  | .cancelledError =>
    (some (cancelledOutcome call completionIndex), completionIndex + 1)
  | .exception _ => (none, completionIndex)

-- ==== outcomes name their call

variable {call : ResolvedToolCall} {result : ToolCallResult}

theorem buildOutcome_eq_some {ci n : Nat} {o : ToolOutcome}
    (h : buildOutcome conflictKey call result ci = (some o, n)) :
    o.resolvedCall = call ∧ o.replayIndex = call.replayIndex
      ∧ o.completionIndex = ci ∧ n = ci + 1 := by
  unfold buildOutcome at h
  split at h
  · cases h
  · next classified _ =>
    obtain ⟨ho, hn⟩ := Prod.mk.inj h
    obtain ⟨updates, -, rfl⟩ := Option.map_eq_some_iff.1 ho
    exact ⟨rfl, rfl, rfl, hn.symm⟩

theorem settleRun_eq_some {run : ToolRun} {ci n : Nat} {o : ToolOutcome}
    (h : settleRun conflictKey call run ci = (some o, n)) :
    o.resolvedCall = call ∧ o.replayIndex = call.replayIndex := by
  unfold settleRun at h
  split at h
  · obtain ⟨hc, hr, -, -⟩ := buildOutcome_eq_some conflictKey h
    exact ⟨hc, hr⟩
  · cases h
    exact ⟨rfl, rfl⟩
  · cases h

@[simp] theorem bareOutcome_resolvedCall (call : ResolvedToolCall)
    (status : ToolCallStatus) (error : String) (ci : Nat) :
    (bareOutcome call status error ci).resolvedCall = call := rfl

@[simp] theorem bareOutcome_replayIndex (call : ResolvedToolCall)
    (status : ToolCallStatus) (error : String) (ci : Nat) :
    (bareOutcome call status error ci).replayIndex = call.replayIndex := rfl

theorem syntheticOutcome_resolvedCall (call : ResolvedToolCall) (ci : Nat) :
    (syntheticOutcome call ci).resolvedCall = call
      ∧ (syntheticOutcome call ci).replayIndex = call.replayIndex := by
  unfold syntheticOutcome
  split
  · split
    · exact ⟨rfl, rfl⟩
    · exact ⟨rfl, rfl⟩
  · exact ⟨rfl, rfl⟩

-- ==== calls without an outcome

def readExitCode (call : ResolvedToolCall) (result : ToolCallResult) :
    Option PyVal :=
  match call.resolvedSemantics, result.output with
  | some semantics, .dict output =>
    if result.status = .success
        ∧ semantics.failurePolicy.resultClassifier
          = .nonzeroExitOrException then
      some ((lookupKey output "exit_code").getD (.int 0))
    else none
  | _, _ => none

/-- An exit code `int()` rejects: `None`, a list, a word. -/
def UnreadableExit (call : ResolvedToolCall) (result : ToolCallResult) :
    Prop :=
  ∃ code, readExitCode call result = some code ∧ pyInt code = none

def FailingExit (call : ResolvedToolCall) (result : ToolCallResult) : Prop :=
  ∃ semantics code n, call.resolvedSemantics = some semantics
    ∧ readExitCode call result = some code ∧ pyInt code = some n ∧ n ≠ 0
    ∧ semantics.failurePolicy.surfacedStatus ≠ .success

def UnresolvablePath (call : ResolvedToolCall) : Prop :=
  ∃ semantics, call.resolvedSemantics = some semantics
    ∧ ∃ path ∈ targetPaths semantics, conflictKey path = none

/-- The causes for which no outcome can be built from a result. -/
def Unbuildable (call : ResolvedToolCall) (result : ToolCallResult) : Prop :=
  UnreadableExit call result
    ∨ (result.status = .success ∧ ¬ FailingExit call result
      ∧ UnresolvablePath conflictKey call)

/-- The causes for which an exception leaves the task of a started call:
the tool or its post-tool hook raised and the failure hook's dispatch
raised too, or no outcome can be built from what the tool returned. -/
def Escapes (call : ResolvedToolCall) (run : ToolRun) : Prop :=
  (((∃ m, run.execute = .raises m)
      ∨ (∃ raw m, run.execute = .returns raw ∧ run.postHook = .raises m))
    ∧ ∃ m, run.failureHook = .raises m)
  ∨ ∃ raw, run.execute = .returns raw ∧ run.postHook = .proceeds
    ∧ Unbuildable conflictKey call
        (mapToolOutput call.definitionName call.toolUseId raw)

theorem classifyResult_eq_none_iff :
    classifyResult result call = none ↔ UnreadableExit call result := by
  unfold classifyResult UnreadableExit readExitCode
  cases call.resolvedSemantics with
  | none => simp
  | some semantics =>
    by_cases hs : result.status = .success
    · by_cases hc : semantics.failurePolicy.resultClassifier
          = .nonzeroExitOrException
      · cases result.output with
        | dict output =>
          cases hp : pyInt ((lookupKey output "exit_code").getD (.int 0))
            with
          | none => simp [hs, hc, hp]
          | some n =>
            by_cases hn : n = 0
            · simp [hs, hc, hp, hn]
            · simp [hs, hc, hp, hn]
        | _ => simp [hs, hc]
      · cases result.output with
        | _ => simp [hs, hc]
    · cases result.output with
      | _ => simp [hs]

/-- A classified result is still a success exactly when it was one and
its exit code does not fail it. -/
theorem classifyResult_success_iff {classified : ToolCallResult}
    (h : classifyResult result call = some classified) :
    classified.status = .success
      ↔ result.status = .success ∧ ¬ FailingExit call result := by
  unfold classifyResult at h
  unfold FailingExit readExitCode
  cases hsem : call.resolvedSemantics with
  | none =>
    rw [hsem] at h
    cases h
    simp
  | some semantics =>
    rw [hsem] at h
    by_cases hs : result.status = .success
    · by_cases hc : semantics.failurePolicy.resultClassifier
          = .nonzeroExitOrException
      · cases ho : result.output with
        | dict output =>
          cases hp : pyInt ((lookupKey output "exit_code").getD (.int 0))
            with
          | none => simp [hs, hc, ho, hp] at h
          | some n =>
            by_cases hn : n = 0
            · simp [hs, hc, ho, hp, hn] at h
              simp [← h, hs, hp, hc, hn]
            · simp [hs, hc, ho, hp, hn] at h
              simp [← h, hs, hc, hp, hn]
        | _ =>
          simp [hs, hc, ho] at h
          simp [← h, hs]
      · have hr : result = classified := by
          simpa [hs, hc] using h
        cases result.output with
        | _ => simp [← hr, hs, hc]
    · have hr : result = classified := by
        simpa [hs] using h
      simp [← hr, hs]

/-- The derived updates fail exactly on an unresolvable path of a
successful result. -/
theorem derivedContextUpdates_eq_none_iff :
    derivedContextUpdates conflictKey call result = none
      ↔ result.status = .success ∧ UnresolvablePath conflictKey call := by
  have hmap : ∀ (paths : List String) (f : String → String →
      FileObservationRecorded),
      paths.mapM (fun path => (conflictKey path).map (f path)) = none
        ↔ ∃ path ∈ paths, conflictKey path = none := by
    intro paths f
    induction paths with
    | nil => simp
    | cons path paths ih =>
      cases hk : conflictKey path with
      | none => simp [hk]
      | some key =>
        rw [List.mapM_cons]
        have hrest : (∃ p ∈ path :: paths, conflictKey p = none)
            ↔ ∃ p ∈ paths, conflictKey p = none := by
          simp [hk]
        rw [hrest, ← ih]
        cases paths.mapM fun p => (conflictKey p).map (f p) with
        | none => simp [hk]
        | some updates => simp [hk]
  unfold derivedContextUpdates UnresolvablePath
  by_cases hs : result.status = .success
  · cases call.resolvedSemantics with
    | none => simp [hs]
    | some semantics => simp [hs, hmap]
  · simp [hs]

/-- An outcome cannot be built for exactly the causes `Unbuildable`
names. -/
theorem buildOutcome_eq_none_iff {ci : Nat} :
    (buildOutcome conflictKey call result ci).1 = none
      ↔ Unbuildable conflictKey call result := by
  unfold buildOutcome Unbuildable
  cases h : classifyResult result call with
  | none => simp [classifyResult_eq_none_iff.1 h]
  | some classified =>
    have hread : ¬ UnreadableExit call result := by
      rw [← classifyResult_eq_none_iff, h]
      simp
    rw [← and_assoc, ← classifyResult_success_iff h]
    simp [hread, derivedContextUpdates_eq_none_iff]

/-- The boundary's own results are not successes, and an outcome is built
from each. -/
theorem buildOutcome_preflight {interruptReason : Option String} {n : Nat}
    (h : preflight call interruptReason = some result) :
    ∃ o, buildOutcome conflictKey call result n = (some o, n + 1) := by
  have hs : result.status ≠ .success := by
    unfold preflight at h
    cases hd : call.toolDefinition with
    | none =>
      rw [hd] at h
      cases h
      simp
    | some definition =>
      simp only [hd] at h
      split_ifs at h
      · cases h
        simp
      · cases h
        simp
  have hc : classifyResult result call = some result := by
    unfold classifyResult
    split
    · rfl
    · rw [if_pos hs]
  simp [buildOutcome, hc, derivedContextUpdates, hs]

/-- A started call ends without an outcome exactly when an exception
escapes it. -/
theorem settleRun_eq_none_iff {run : ToolRun} {n : Nat} :
    (settleRun conflictKey call run n).1 = none
      ↔ Escapes conflictKey call run := by
  -- a result that is not a success builds an outcome
  have hfail : ∀ result : ToolCallResult, result.status ≠ .success →
      ¬ Unbuildable conflictKey call result := by
    intro result hs h
    rcases h with ⟨code, hread, -⟩ | ⟨h, -⟩
    · unfold readExitCode at hread
      split at hread
      · simp [hs] at hread
      · cases hread
    · exact hs h
  have hfailed : ∀ message,
      ((match failedResult call run message with
        | .value result => buildOutcome conflictKey call result n
        | .cancelledError => (some (cancelledOutcome call n), n + 1)
        | .exception _ => (none, n)).1 = none)
        ↔ ∃ m, run.failureHook = .raises m := by
    intro message
    unfold failedResult
    cases run.failureHook with
    | raises m => simp
    | cancelled => simp
    | _ =>
      simp only [buildOutcome_eq_none_iff]
      have := hfail { callId := call.toolUseId
                      toolName := call.definitionName
                      status := .error, error := .str message } (by simp)
      simpa using this
  unfold settleRun executeResolvedToolCall Escapes
  cases run.execute with
  | cancelled =>
    simp only [buildOutcome_eq_none_iff]
    have := hfail (cancelledResult call) (by simp [cancelledResult])
    simpa using this
  | raises message => simpa using hfailed message
  | returns raw =>
    cases run.postHook with
    | cancelled =>
      simp only [buildOutcome_eq_none_iff]
      have := hfail (cancelledResult call) (by simp [cancelledResult])
      simpa using this
    | raises message => simpa using hfailed message
    | blocks =>
      simp only [buildOutcome_eq_none_iff]
      have := hfail
        { callId := call.toolUseId, toolName := call.definitionName
          status := .denied
          error := .str "Tool result blocked by runtime hook" } (by simp)
      simpa using this
    | proceeds => simp [buildOutcome_eq_none_iff]

end Environment

end WeaveRuntime.Tools
