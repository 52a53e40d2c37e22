/-
What each of the two routes makes of the common part: which tool it
executes on which input, and what comes back.

Both routes execute a tool through `invokeTool`, after the common part has
cleared the call, so the log of a call is at most one execution, on the
input that reaches the tool. The resolved route may still stop a cleared
call, where the semantics of the call or its lane cannot be computed
(`Schedulable`).
-/
import WeaveRuntime.Tools.Clearance

namespace WeaveRuntime.Tools

open Lib

-- ==== what is executed

section Executed

variable {context : ToolContext} {definition : Tool}

theorem executed_invokeTool (callId : String) (toolInput : ToolInput)
    (log : CallLog) :
    ((invokeTool context definition callId toolInput).run log).2.executed
      = if definition.body.execute.isSome then
          log.executed ++ [(definition, toolInput)]
        else log.executed := by
  unfold invokeTool
  cases definition.body.execute with
  | none => rfl
  | some execute =>
    -- from the write on, the log stays as it is
    have hrest : ∀ (started : CallLog),
        ((Method.lift (execute toolInput) >>= fun rawOutput =>
          Method.lift (dispatchPostToolUse context definition toolInput
            rawOutput) >>= fun postToolHook =>
          if !postToolHook.continueExecution then
            pure (directResult definition callId .denied
              "Tool result blocked by runtime hook")
          else
            pure (mapToolOutput definition.name callId
              rawOutput)).run started).2 = started := by
      intro started
      cases hraw : execute toolInput with
      | error message => rw [run_lift_bind_error rfl]
      | ok rawOutput =>
        rw [run_lift_bind rfl]
        cases hpost : dispatchPostToolUse context definition toolInput
            rawOutput with
        | error message => rw [run_lift_bind_error rfl]
        | ok postToolHook =>
          rw [run_lift_bind rfl]
          split <;> rfl
    exact congrArg CallLog.executed (hrest _)

end Executed

/-- What an exception that is caught becomes: an error result, or what the
dispatch of the failure hook raises. -/
def afterFailure (context : ToolContext) (definition : Tool)
    (callId : String) (toolInput : ToolInput) (message : String) :
    Except String ToolCallResult :=
  match dispatchPostToolUseFailure context definition toolInput message with
  | .error m => .error m
  | .ok _ => .ok (directResult definition callId .error message)

theorem run_afterFailure (context : ToolContext) (definition : Tool)
    (callId : String) (toolInput : ToolInput) (message : String)
    (log : CallLog) :
    (Method.lift (dispatchPostToolUseFailure context definition toolInput
        message) >>= fun _ =>
      (pure (directResult definition callId .error message) :
        Method CallLog String ToolCallResult)).run log
      = (afterFailure context definition callId toolInput message, log) := by
  unfold afterFailure
  cases dispatchPostToolUseFailure context definition toolInput message with
  | error m => rfl
  | ok u => rfl

def executions (definition : Tool) :
    Except String Clearance → List (Tool × ToolInput)
  | .ok (.cleared toolInput) =>
    if definition.body.execute.isSome then [(definition, toolInput)] else []
  | _ => []

theorem mem_executions {definition : Tool} {r : Except String Clearance}
    {e : Tool × ToolInput} :
    e ∈ executions definition r
      ↔ e.1 = definition ∧ definition.body.execute.isSome = true
        ∧ r = .ok (.cleared e.2) := by
  obtain ⟨tool, input⟩ := e
  cases r with
  | error message => simp [executions]
  | ok clear =>
    cases clear with
    | cleared toolInput =>
      by_cases h : definition.body.execute.isSome = true
      · simp [executions, h, eq_comm]
      · simp [executions, h]
    | _ => simp [executions]

/-- What a result or an exception is once exceptions are caught. -/
def caught (context : ToolContext) (definition : Tool) (callId : String)
    (toolInput : ToolInput) :
    Except String ToolCallResult → Except String ToolCallResult
  | .ok result => .ok result
  | .error message =>
    afterFailure context definition callId toolInput message

theorem run_caught {context : ToolContext} {definition : Tool}
    {callId : String} {toolInput : ToolInput}
    (body : Method CallLog String ToolCallResult) (log : CallLog) :
    (Method.tryExcept body fun message => do
        Method.lift
          (dispatchPostToolUseFailure context definition toolInput message)
        pure (directResult definition callId .error message)).run log
      = (caught context definition callId toolInput (body.run log).1,
          (body.run log).2) := by
  cases hrun : body.run log with
  | mk r after =>
    cases r with
    | ok result => exact Method.run_tryExcept_of_ok hrun
    | error message =>
      exact (Method.run_tryExcept_of_error hrun).trans
        (run_afterFailure context definition callId toolInput message
          after)

-- ==== the direct route

section Direct

variable (context : ToolContext) (definition : Tool) (callId : String)
  (raw : ToolInput)

/-- The direct route: its `try` block, and what is caught. -/
theorem run_executeToolCall :
    (executeToolCall context definition callId raw).run {}
      = (caught context definition callId raw
            ((executeBody context definition callId raw).run {}).1,
          ((executeBody context definition callId raw).run {}).2) :=
  run_caught _ _

theorem executed_executeToolCall :
    ((executeToolCall context definition callId raw).run {}).2.executed
      = executions definition
        ((clearance context definition raw).run {}).1 := by
  have hnone := clearance_unexecuted context definition raw {}
  rw [run_executeToolCall, executeBody_eq_clearance]
  cases hrun : (clearance context definition raw).run {} with
  | mk r log =>
    rw [hrun] at hnone
    cases r with
    | error message =>
      rw [Method.run_bind_of_error hrun]
      exact hnone
    | ok clear =>
      rw [Method.run_bind_of_ok hrun]
      cases clear with
      | cleared toolInput =>
        refine (executed_invokeTool callId toolInput log).trans ?_
        rw [hnone]
        rfl
      | _ => exact hnone

end Direct

-- ==== the resolved route

theorem mapM_eq_none_iff {f : String → Option String} {paths : List String} :
    paths.mapM f = none ↔ ∃ path ∈ paths, f path = none := by
  induction paths with
  | nil => simp
  | cons path paths ih =>
    rw [List.mapM_cons]
    cases hf : f path with
    | none => simp [hf]
    | some key =>
      have hrest : (∃ p ∈ path :: paths, f p = none)
          ↔ ∃ p ∈ paths, f p = none := by
        simp [hf]
      rw [hrest, ← ih]
      cases paths.mapM f with
      | none => simp
      | some keys => simp

section Resolved

variable (context : ToolContext) (definition : Tool)
  (envelope : ToolCallEnvelope) (canonicalToolName : String)
  (raw : ToolInput)

/-- The call a clearance is resolved to, with these semantics. -/
def executableCall (semantics : ResolvedToolExecutionSemantics)
    (toolInput : ToolInput) : PreparedCall :=
  resolvedCall envelope canonicalToolName definition .executable
    (some semantics) (some .allowed) (some toolInput)

/-- A cleared call gets to its task: its semantics resolve, and so do the
paths its lane locks. -/
def Schedulable (toolInput : ToolInput)
    (semantics : ResolvedToolExecutionSemantics) : Prop :=
  resolveExecutionSemantics definition toolInput = .ok semantics
    ∧ (semantics.concurrencySafe = true →
      ∀ path ∈ targetPaths semantics, context.conflictKey path ≠ none)

theorem deriveLane_executableCall
    {semantics : ResolvedToolExecutionSemantics} {toolInput : ToolInput} :
    deriveLane context.conflictKey
        (executableCall definition envelope canonicalToolName semantics
          toolInput).toResolvedToolCall = none
      ↔ semantics.concurrencySafe = true
        ∧ ∃ path ∈ targetPaths semantics, context.conflictKey path = none := by
  rw [← mapM_eq_none_iff]
  unfold deriveLane
  have hstatus : (executableCall definition envelope canonicalToolName
      semantics toolInput).resolutionStatus = .executable := rfl
  have hsem : (executableCall definition envelope canonicalToolName
      semantics toolInput).resolvedSemantics = some semantics := rfl
  rw [hstatus, hsem]
  cases hsafe : semantics.concurrencySafe with
  | false => simp [hsafe]
  | true =>
    cases hmap : (targetPaths semantics).mapM context.conflictKey with
    | none => simp [hsafe, hmap]
    | some keys =>
      simp only [hsafe, hmap, ne_eq, not_true_eq_false, if_false,
        Bool.not_true, Bool.false_eq_true, Option.bind_eq_bind,
        Option.bind_some, Option.pure_def, true_and]
      split
      · simp
      · split
        · simp
        · simp

/-- The call as its task has it. -/
def scheduledCall (semantics : ResolvedToolExecutionSemantics)
    (toolInput : ToolInput) (lane : Option ToolSchedulerLane) :
    ResolvedToolCall :=
  { (executableCall definition envelope canonicalToolName semantics
      toolInput).toResolvedToolCall with schedulerLane := lane }

/-- The resolved route, where the call finds its definition and passes the
gate: the common part, the resolution it leads to, and the schedule. -/
theorem observeToolCall_eq
    (hname : resolveCanonicalToolName context envelope.rawToolName
      = some canonicalToolName)
    (hfound : context.toolRegistry.get canonicalToolName = some definition)
    (hgate : gateDenies context envelope.rawToolName = false) :
    observeToolCall context envelope raw
      = clearance context definition raw >>= fun clear =>
          finishResolve definition envelope canonicalToolName clear
            >>= scheduleCall context := by
  unfold observeToolCall resolveToolCall
  rw [hname]
  dsimp only
  rw [hfound]
  dsimp only
  rw [hgate, ← bind_assoc, ← resolveDefinition_eq_clearance]
  rfl

def stopStatus : Clearance → ToolCallStatus
  | .blocked => .denied
  | .denied behavior _ _ => deniedStatus behavior
  | _ => .error

theorem syntheticOutcome_deniedCall (status : ToolCallStatus)
    (message : String) (executionInput : Option ToolInput)
    (lane : Option ToolSchedulerLane) :
    (syntheticOutcome { (deniedCall envelope canonicalToolName definition
        status message executionInput).toResolvedToolCall with
        schedulerLane := lane } 0).status = status := rfl

theorem run_stopped {clear : Clearance} (log : CallLog)
    (h : ∀ toolInput, clear ≠ .cleared toolInput) :
    ∃ o, (finishResolve definition envelope canonicalToolName clear
        >>= scheduleCall context).run log = (.ok (some o), log)
      ∧ o.status = stopStatus clear := by
  cases clear with
  | cleared toolInput => exact absurd rfl (h toolInput)
  | _ => exact ⟨_, rfl, rfl⟩

/-- A cleared call whose semantics or lane cannot be computed leaves
`observe_tool_call` with an exception. -/
theorem run_unschedulable {toolInput : ToolInput} (log : CallLog)
    (h : ∀ semantics, ¬ Schedulable context definition toolInput semantics) :
    ∃ message, (finishResolve definition envelope canonicalToolName
        (.cleared toolInput) >>= scheduleCall context).run log
      = (.error message, log) := by
  unfold finishResolve
  rw [bind_assoc]
  cases hsem : resolveExecutionSemantics definition toolInput with
  | error message => exact ⟨message, run_lift_bind_error rfl⟩
  | ok semantics =>
    rw [run_lift_bind rfl]
    refine ⟨"conflict key", ?_⟩
    have hlane : deriveLane context.conflictKey
        (executableCall definition envelope canonicalToolName semantics
          toolInput).toResolvedToolCall = none := by
      rw [deriveLane_executableCall]
      by_contra hne
      refine h semantics ⟨hsem, fun hsafe path hpath hkey => hne ?_⟩
      exact ⟨hsafe, path, hpath, hkey⟩
    rw [pure_bind]
    unfold scheduleCall
    unfold executableCall at hlane
    rw [hlane]
    rfl

/-- What the task of a call makes of what its tool came to. -/
def settled (call : ResolvedToolCall) (toolInput : ToolInput)
    (r : Except String ToolCallResult) : Option ToolOutcome :=
  match caught context definition call.toolUseId toolInput r with
  | .ok result => (buildOutcome context.conflictKey call result 0).1
  | .error _ => none

theorem run_runScheduledCall {definition : Tool} {call : PreparedCall}
    {toolInput : ToolInput} (hdef : call.definition = some definition)
    (hinput : call.executionInput = some toolInput) (log : CallLog) :
    (runScheduledCall context call).run log
      = (.ok (settled context definition call.toResolvedToolCall toolInput
            ((invokeTool context definition call.toolUseId
              toolInput).run log).1),
          ((invokeTool context definition call.toolUseId
            toolInput).run log).2) := by
  have hrun : (runResolvedToolCall context call).run log
      = (caught context definition call.toolUseId toolInput
            ((invokeTool context definition call.toolUseId
              toolInput).run log).1,
          ((invokeTool context definition call.toolUseId
            toolInput).run log).2) := by
    unfold runResolvedToolCall
    rw [hdef, hinput]
    exact run_caught _ _
  unfold runScheduledCall settled
  cases hcaught : caught context definition call.toolUseId toolInput
      ((invokeTool context definition call.toolUseId toolInput).run log).1
    with
  | ok result =>
    rw [hcaught] at hrun
    exact Method.run_tryExcept_of_ok (Method.run_bind_of_ok hrun)
  | error message =>
    rw [hcaught] at hrun
    exact Method.run_tryExcept_of_error (Method.run_bind_of_error hrun)

/-- A cleared call whose semantics and lane are known is run by its
task. -/
theorem run_scheduled {toolInput : ToolInput}
    {semantics : ResolvedToolExecutionSemantics} (log : CallLog)
    (h : Schedulable context definition toolInput semantics) :
    ∃ lane, (finishResolve definition envelope canonicalToolName
        (.cleared toolInput) >>= scheduleCall context).run log
      = (.ok (settled context definition
            (scheduledCall definition envelope canonicalToolName semantics
              toolInput lane) toolInput
            ((invokeTool context definition envelope.toolUseId
              toolInput).run log).1),
          ((invokeTool context definition envelope.toolUseId
            toolInput).run log).2) := by
  obtain ⟨hsem, hpaths⟩ := h
  have hlane : ∃ lane, deriveLane context.conflictKey
      (executableCall definition envelope canonicalToolName semantics
        toolInput).toResolvedToolCall = some lane := by
    rw [← Option.ne_none_iff_exists', ne_eq, deriveLane_executableCall]
    rintro ⟨hsafe, path, hpath, hkey⟩
    exact hpaths hsafe path hpath hkey
  obtain ⟨lane, hlane⟩ := hlane
  refine ⟨lane, ?_⟩
  unfold finishResolve
  rw [bind_assoc, run_lift_bind hsem, pure_bind]
  unfold scheduleCall
  unfold executableCall at hlane
  rw [hlane]
  dsimp only
  rw [if_neg (by simp [resolvedCall])]
  exact run_runScheduledCall context rfl rfl log

end Resolved

end WeaveRuntime.Tools
