/-
The two ways to execute a tool call, compared.

`Agree` is what they should have in common: both end with a result, the
same tool is executed on the same input, one succeeds where the other does
and is denied where the other is. Both are the common part (`clearance`)
and `invokeTool`, so they differ only in what is made of an exception and
of a result:

- what the validator, the hook before the tool, the permission check or
  the permission service raises is caught on the direct way only, and so
  is what the semantics of the call or its lane raise, which the direct
  way does not look at at all (`RaisesBeforeTool`);
- where something is caught, the failure hook is dispatched, on the raw
  input or on the one the tool got, and what that raises is not caught;
- only the resolved way classifies a result by its exit code and resolves
  the paths it touched (`Unbuildable`, `FailingExit`).

`agree_iff` says that these are all the differences. The gate of the pool
stands on the resolved way only, so a call it turns away agrees exactly
where the direct way denies it too.
-/
import WeaveRuntime.Tools.PoolGate

namespace WeaveRuntime.Tools

open Lib
open Registries (Aliased)
open Permissions (HookEffect)

-- ========== statements

/-- Denied, or cancelled because nobody was there to ask. -/
def isDenied (status : ToolCallStatus) : Prop :=
  status = .denied ∨ status = .cancelled

/-- Both ways end with a result, execute the same, and agree on success
and denial. -/
def Agree (direct : Except String ToolCallResult × CallLog)
    (resolved : Except String (Option ToolOutcome) × CallLog) : Prop :=
  ∃ result outcome, direct.1 = .ok result ∧ resolved.1 = .ok (some outcome)
    ∧ direct.2.executed = resolved.2.executed
    ∧ (result.status = .success ↔ outcome.status = .success)
    ∧ (isDenied result.status ↔ isDenied outcome.status)

section Statements

variable (context : ToolContext) (definition : Tool) (raw : ToolInput)

/-- An exception on the way to the tool, from anything but the schema
check. -/
inductive RaisesBeforeTool : Prop
  | validator (normalized : ToolInput) (message : String)
      (hschema : definition.body.validateInputSchema raw = .ok normalized)
      (hvalid : validateInput definition normalized = .error message)
  | hook (input : ToolInput) (message : String)
      (hreach : ReachesHook definition raw input)
      (hhook : dispatchPreToolUse context definition input
        = .error message)
  | check (input : ToolInput) (hook : HookEffect) (message : String)
      (hreach : ReachesCheck context definition raw hook input)
      (hcheck : checkPermissions definition input = .error message)
  | permission (hook : HookEffect) (input : ToolInput)
      (decision : PermissionDecision) (message : String)
      (hreach : ReachesPermission context definition raw hook input decision)
      (hgrant : ((grant context definition hook input decision).run {}).1
        = .error message)
  | semantics (toolInput : ToolInput) (message : String)
      (hreach : ReachesTool context definition raw {} toolInput)
      (hsem : resolveExecutionSemantics definition toolInput
        = .error message)
  | lane (toolInput : ToolInput)
      (semantics : ResolvedToolExecutionSemantics) (path : String)
      (hreach : ReachesTool context definition raw {} toolInput)
      (hsem : resolveExecutionSemantics definition toolInput = .ok semantics)
      (hsafe : semantics.concurrencySafe = true)
      (hpath : path ∈ targetPaths semantics)
      (hkey : context.conflictKey path = none)

/-- The dispatch of the failure hook does not raise. -/
def FailureReported (toolInput : ToolInput) (message : String) : Prop :=
  dispatchPostToolUseFailure context definition toolInput message = .ok ()

def ToolRaises (toolInput : ToolInput) (message : String) : Prop :=
  ∃ execute, definition.body.execute = some execute
    ∧ (execute toolInput = .error message
      ∨ ∃ rawOutput, execute toolInput = .ok rawOutput
        ∧ dispatchPostToolUse context definition toolInput rawOutput
          = .error message)

/-- The tool returns, and the hook after it lets the result through. -/
def ToolReturns (toolInput : ToolInput) (rawOutput : RawOutput) : Prop :=
  ∃ execute hook, definition.body.execute = some execute
    ∧ execute toolInput = .ok rawOutput
    ∧ dispatchPostToolUse context definition toolInput rawOutput = .ok hook
    ∧ hook.continueExecution = true

/-- Nothing happens to the call that the two ways treat differently. -/
structure Uneventful (envelope : ToolCallEnvelope) : Prop where
  unraised : ¬ RaisesBeforeTool context definition raw
  schema : ∀ message,
    definition.body.validateInputSchema raw = .error message →
    FailureReported context definition raw message
  tool : ∀ toolInput message,
    ReachesTool context definition raw {} toolInput →
    ToolRaises context definition toolInput message →
    FailureReported context definition raw message
      ∧ FailureReported context definition toolInput message
  result : ∀ toolInput semantics rawOutput,
    ReachesTool context definition raw {} toolInput →
    resolveExecutionSemantics definition toolInput = .ok semantics →
    ToolReturns context definition toolInput rawOutput →
    ¬ Unbuildable context.conflictKey
        (scheduledCall definition envelope definition.name semantics
          toolInput none)
        (mapToolOutput definition.name envelope.toolUseId rawOutput)
      ∧ ¬ FailingExit
        (scheduledCall definition envelope definition.name semantics
          toolInput none)
        (mapToolOutput definition.name envelope.toolUseId rawOutput)

/-- The call is denied on its way to the tool: a hook blocks it, or the
permission is not granted. -/
inductive DeniedBeforeTool : Prop
  | hook (input : ToolInput) (hook : HookEffect)
      (hreach : ReachesHook definition raw input)
      (hhook : dispatchPreToolUse context definition input = .ok hook)
      (hstop : hook.continueExecution = false)
  | permission (hook : HookEffect) (input toolInput : ToolInput)
      (decision : PermissionDecision) (behavior : PermissionBehavior)
      (message : String)
      (hreach : ReachesPermission context definition raw hook input decision)
      (hgrant : ((grant context definition hook input decision).run {}).1
        = .ok (.denied behavior message toolInput))

end Statements

-- ==== stages and answers

section Answers

variable {context : ToolContext} {definition : Tool} {raw : ToolInput}

/-- The permission service's part denies or clears, where it returns. -/
theorem grant_answers {hook : HookEffect} {input : ToolInput}
    {decision : PermissionDecision} {log : CallLog} {clear : Clearance}
    (h : ((grant context definition hook input decision).run log).1
      = .ok clear) :
    (∃ behavior message toolInput,
      clear = .denied behavior message toolInput)
    ∨ ∃ toolInput, clear = .cleared toolInput := by
  have hanswer : ∀ decision toolInput,
      (∃ behavior message input,
        answer decision toolInput = .denied behavior message input)
      ∨ ∃ input, answer decision toolInput = .cleared input := by
    intro decision toolInput
    unfold answer
    split
    · exact Or.inl ⟨_, _, _, rfl⟩
    · exact Or.inr ⟨_, rfl⟩
  have hpost : Method.Ensures
      (grant context definition hook input decision) log
      fun r _ => ∀ clear, r = .ok clear →
        (∃ behavior message toolInput,
          clear = .denied behavior message toolInput)
        ∨ ∃ toolInput, clear = .cleared toolInput := by
    unfold grant
    cases context.runtimeServices with
    | some services =>
      refine Method.ensures_bind (P := fun _ _ => True) trivial
        (fun decided _ _ => ?_) (fun _ _ _ clear hc => by cases hc)
      intro clear hc
      cases hc
      exact hanswer _ _
    | none =>
      dsimp only
      split
      · cases context.permissionHandler with
        | none =>
          intro clear hc
          cases hc
          exact Or.inl ⟨_, _, _, rfl⟩
        | some handler =>
          refine Method.ensures_bind (P := fun _ _ => True) trivial
            (fun _ _ _ => ?_) (fun _ _ _ clear hc => by cases hc)
          refine Method.ensures_bind (P := fun _ _ => True) trivial
            (fun decided _ _ => ?_) (fun _ _ _ clear hc => by cases hc)
          intro clear hc
          cases hc
          exact hanswer _ _
      · intro clear hc
        cases hc
        exact hanswer _ _
  exact hpost clear h

theorem malformed_iff {message : String} :
    ((clearance context definition raw).run {}).1
        = .ok (.malformed message)
      ↔ definition.body.validateInputSchema raw = .error message := by
  refine ⟨fun h => ?_, fun h => ?_⟩
  · have hs := stops context definition raw {}
    generalize (clearance context definition raw).run {} = r at h hs
    cases hs with
    | schema message hschema =>
      cases h
      exact hschema
    | permission hook input decision hreach =>
      rcases grant_answers h with ⟨_, _, _, hc⟩ | ⟨_, hc⟩
      · cases hc
      · cases hc
    | _ => cases h
  · have hrun : (clearance context definition raw).run {} = _ :=
      (Stops.schema message h).run_eq
    rw [hrun]

theorem raisesBeforeTool_iff :
    RaisesBeforeTool context definition raw
      ↔ (∃ message, ((clearance context definition raw).run {}).1
          = .error message)
        ∨ ∃ toolInput, ((clearance context definition raw).run {}).1
            = .ok (.cleared toolInput)
          ∧ ∀ semantics,
            ¬ Schedulable context definition toolInput semantics := by
  have hstop : ∀ {r}, Stops context definition raw {} r →
      ((clearance context definition raw).run {}).1 = r.1 :=
    fun h => congrArg Prod.fst h.run_eq
  refine ⟨fun h => ?_, fun h => ?_⟩
  · cases h with
    | validator normalized message hschema hvalid =>
      exact Or.inl ⟨message,
        hstop (.validatorRaises normalized message hschema hvalid)⟩
    | hook input message hreach hhook =>
      exact Or.inl ⟨message,
        hstop (.hookRaises input message hreach hhook)⟩
    | check input hook message hreach hcheck =>
      exact Or.inl ⟨message,
        hstop (.checkRaises input hook message hreach hcheck)⟩
    | permission hook input decision message hreach hgrant =>
      exact Or.inl ⟨message,
        (hstop (.permission hook input decision hreach)).trans hgrant⟩
    | semantics toolInput message hreach hsem =>
      refine Or.inr ⟨toolInput, reachesTool_iff.1 hreach, ?_⟩
      intro semantics hsched
      have heq := hsem.symm.trans hsched.1
      cases heq
    | lane toolInput semantics path hreach hsem hsafe hpath hkey =>
      refine Or.inr ⟨toolInput, reachesTool_iff.1 hreach, ?_⟩
      intro semantics' hsched
      have heq := hsem.symm.trans hsched.1
      cases heq
      exact hsched.2 hsafe path hpath hkey
  · rcases h with ⟨message, h⟩ | ⟨toolInput, hclear, hsched⟩
    · have hs := stops context definition raw {}
      generalize (clearance context definition raw).run {} = r at h hs
      cases hs with
      | validatorRaises normalized message' hschema hvalid =>
        exact .validator normalized message' hschema hvalid
      | hookRaises input message' hreach hhook =>
        exact .hook input message' hreach hhook
      | checkRaises input hook message' hreach hcheck =>
        exact .check input hook message' hreach hcheck
      | permission hook input decision hreach =>
        exact .permission hook input decision message hreach h
      | _ => cases h
    · have hreach := reachesTool_iff.2 hclear
      cases hsem : resolveExecutionSemantics definition toolInput with
      | error message => exact .semantics toolInput message hreach hsem
      | ok semantics =>
        by_contra hraise
        refine hsched semantics ⟨hsem, fun hsafe path hpath hkey => ?_⟩
        exact hraise (.lane toolInput semantics path hreach hsem hsafe
          hpath hkey)

theorem deniedBeforeTool_iff :
    DeniedBeforeTool context definition raw
      ↔ ((clearance context definition raw).run {}).1 = .ok .blocked
        ∨ ∃ behavior message toolInput,
          ((clearance context definition raw).run {}).1
            = .ok (.denied behavior message toolInput) := by
  have hstop : ∀ {r}, Stops context definition raw {} r →
      ((clearance context definition raw).run {}).1 = r.1 :=
    fun h => congrArg Prod.fst h.run_eq
  refine ⟨fun h => ?_, fun h => ?_⟩
  · cases h with
    | hook input hook hreach hhook hgo =>
      exact Or.inl (hstop (.hook input hook hreach hhook hgo))
    | permission hook input toolInput decision behavior message hreach
        hgrant =>
        exact Or.inr ⟨behavior, message, toolInput,
          (hstop (.permission hook input decision hreach)).trans hgrant⟩
  · have hs := stops context definition raw {}
    generalize (clearance context definition raw).run {} = r at h hs
    cases hs with
    | hook input hook hreach hhook hgo =>
      exact .hook input hook hreach hhook hgo
    | permission hook input decision hreach =>
      rcases h with h | ⟨behavior, message, toolInput, h⟩
      · rcases grant_answers h with ⟨_, _, _, hc⟩ | ⟨_, hc⟩
        · cases hc
        · cases hc
      · exact .permission hook input toolInput decision behavior message
          hreach h
    | _ =>
      rcases h with h | ⟨_, _, _, h⟩
      · cases h
      · cases h

end Answers

-- ============ outcomes

/-- An outcome that agrees with this result is built from it exactly where
the result can be classified, and is still a success where it was one. -/
theorem buildOutcome_agrees_iff {conflictKey : String → Option String}
    {call : ResolvedToolCall} {result : ToolCallResult} :
    (∃ o, (buildOutcome conflictKey call result 0).1 = some o
      ∧ (result.status = .success ↔ o.status = .success)
      ∧ (isDenied result.status ↔ isDenied o.status))
      ↔ ¬ Unbuildable conflictKey call result ∧ ¬ FailingExit call result := by
  have hnone : (buildOutcome conflictKey call result 0).1 = none
      ↔ Unbuildable conflictKey call result :=
    buildOutcome_eq_none_iff conflictKey
  rw [← hnone]
  refine ⟨fun ⟨o, ho, hsuccess, _⟩ => ⟨?_, fun hexit => ?_⟩,
    fun ⟨hbuilt, hexit⟩ => ?_⟩
  · rw [ho]
    exact Option.some_ne_none o
  · unfold buildOutcome at ho
    cases hclass : classifyResult result call with
    | none =>
      rw [hclass] at ho
      cases ho
    | some classified =>
      rw [hclass] at ho
      obtain ⟨updates, -, rfl⟩ := Option.map_eq_some_iff.1 ho
      have hstatus := classifyResult_success_iff hclass
      have hread : result.status = .success := by
        obtain ⟨semantics, code, n, -, hcode, -⟩ := hexit
        unfold readExitCode at hcode
        split at hcode
        · split at hcode
          · next hcond => exact hcond.1
          · cases hcode
        · cases hcode
      exact (hstatus.1 (hsuccess.1 hread)).2 hexit
  · obtain ⟨o, ho⟩ := Option.ne_none_iff_exists'.1 hbuilt
    refine ⟨o, ho, ?_⟩
    unfold buildOutcome at ho
    cases hclass : classifyResult result call with
    | none =>
      rw [hclass] at ho
      cases ho
    | some classified =>
      rw [hclass] at ho
      obtain ⟨updates, -, rfl⟩ := Option.map_eq_some_iff.1 ho
      have hstatus := classifyResult_success_iff hclass
      by_cases hsuccess : result.status = .success
      · have hclassified := hstatus.2 ⟨hsuccess, hexit⟩
        dsimp only
        rw [hclassified, hsuccess]
        simp
      · -- a result that is no success is not classified
        have hsame : classified = result := by
          unfold classifyResult at hclass
          split at hclass
          · exact (Option.some.inj hclass).symm
          · rw [if_pos hsuccess] at hclass
            exact (Option.some.inj hclass).symm
        rw [hsame]
        exact ⟨Iff.rfl, Iff.rfl⟩

theorem built_of_unsuccessful {conflictKey : String → Option String}
    {call : ResolvedToolCall} {result : ToolCallResult}
    (h : result.status ≠ .success) :
    ¬ Unbuildable conflictKey call result ∧ ¬ FailingExit call result := by
  have hread : ∀ code, readExitCode call result ≠ some code := by
    intro code hcode
    unfold readExitCode at hcode
    split at hcode
    · rw [if_neg fun hcond => h hcond.1] at hcode
      cases hcode
    · cases hcode
  refine ⟨fun hlost => ?_, fun hexit => ?_⟩
  · rcases hlost with ⟨code, hcode, -⟩ | ⟨hsuccess, -⟩
    · exact hread code hcode
    · exact h hsuccess
  · obtain ⟨_, code, _, -, hcode, -⟩ := hexit
    exact hread code hcode

-- ============ the tool

section Tool

variable {context : ToolContext} {definition : Tool}

/-- What the tool and the hook after it come to. -/
inductive Invoked (context : ToolContext) (definition : Tool) (callId : String) (toolInput : ToolInput) :
    Except String ToolCallResult → Prop
  | raises (message : String)
      (h : ToolRaises context definition toolInput message) :
      Invoked context definition callId toolInput (.error message)
  | returns (rawOutput : RawOutput)
      (h : ToolReturns context definition toolInput rawOutput) :
      Invoked context definition callId toolInput
        (.ok (mapToolOutput definition.name callId rawOutput))
  | stops (result : ToolCallResult) (h : result.status ≠ .success)
      (hraise : ∀ message, ¬ ToolRaises context definition toolInput message)
      (hreturn : ∀ rawOutput,
        ¬ ToolReturns context definition toolInput rawOutput) :
      Invoked context definition callId toolInput (.ok result)

theorem invoked (context : ToolContext) (definition : Tool)
    (callId : String) (toolInput : ToolInput) (log : CallLog) :
    Invoked context definition callId toolInput
      ((invokeTool context definition callId toolInput).run log).1 := by
  unfold invokeTool
  cases hexec : definition.body.execute with
  | none =>
    refine .stops _ (by simp [directResult]) (fun message hraise => ?_)
      fun rawOutput hreturn => ?_
    · obtain ⟨execute, hsome, -⟩ := hraise
      rw [hexec] at hsome
      cases hsome
    · obtain ⟨execute, hook, hsome, -⟩ := hreturn
      rw [hexec] at hsome
      cases hsome
  | some execute =>
    dsimp only
    unfold CallLog.invoked
    rw [Method.run_write_bind]
    cases hraw : execute toolInput with
    | error message =>
      rw [run_lift_bind_error rfl]
      exact .raises message ⟨execute, hexec, Or.inl hraw⟩
    | ok rawOutput =>
      rw [run_lift_bind rfl]
      cases hpost : dispatchPostToolUse context definition toolInput
          rawOutput with
      | error message =>
        rw [run_lift_bind_error rfl]
        exact .raises message
          ⟨execute, hexec, Or.inr ⟨rawOutput, hraw, hpost⟩⟩
      | ok hook =>
        rw [run_lift_bind rfl]
        cases hgo : hook.continueExecution with
        | true =>
          exact .returns rawOutput
            ⟨execute, hook, hexec, hraw, hpost, hgo⟩
        | false =>
          refine .stops _ (by simp [directResult])
            (fun message hraise => ?_) fun output hreturn => ?_
          · obtain ⟨execute', hsome, hcase⟩ := hraise
            rw [hexec] at hsome
            cases hsome
            rcases hcase with herror | ⟨output, hok, herror⟩
            · rw [hraw] at herror
              cases herror
            · rw [hraw] at hok
              cases hok
              rw [hpost] at herror
              cases herror
          · obtain ⟨execute', hook', hsome, hok, hdispatch, hgo'⟩ :=
              hreturn
            rw [hexec] at hsome
            cases hsome
            rw [hraw] at hok
            cases hok
            rw [hpost] at hdispatch
            cases hdispatch
            rw [hgo] at hgo'
            cases hgo'

variable {toolInput : ToolInput}

theorem ToolRaises.unique {message message' : String}
    (h : ToolRaises context definition toolInput message)
    (h' : ToolRaises context definition toolInput message') :
    message' = message := by
  obtain ⟨execute, hexec, hcase⟩ := h
  obtain ⟨execute', hexec', hcase'⟩ := h'
  rw [hexec] at hexec'
  cases hexec'
  rcases hcase with hraw | ⟨rawOutput, hraw, hpost⟩
  · rcases hcase' with hraw' | ⟨_, hraw', -⟩
    · rw [hraw] at hraw'
      cases hraw'
      rfl
    · rw [hraw] at hraw'
      cases hraw'
  · rcases hcase' with hraw' | ⟨_, hraw', hpost'⟩
    · rw [hraw] at hraw'
      cases hraw'
    · rw [hraw] at hraw'
      cases hraw'
      rw [hpost] at hpost'
      cases hpost'
      rfl

theorem ToolReturns.unique {rawOutput rawOutput' : RawOutput}
    (h : ToolReturns context definition toolInput rawOutput)
    (h' : ToolReturns context definition toolInput rawOutput') :
    rawOutput' = rawOutput := by
  obtain ⟨execute, _, hexec, hraw, -, -⟩ := h
  obtain ⟨execute', _, hexec', hraw', -, -⟩ := h'
  rw [hexec] at hexec'
  cases hexec'
  rw [hraw] at hraw'
  cases hraw'
  rfl

theorem ToolRaises.not_returns {message : String} {rawOutput : RawOutput}
    (h : ToolRaises context definition toolInput message) :
    ¬ ToolReturns context definition toolInput rawOutput := by
  intro ⟨execute', hook, hexec', hraw', hpost', _⟩
  obtain ⟨execute, hexec, hcase⟩ := h
  rw [hexec] at hexec'
  cases hexec'
  rcases hcase with hraw | ⟨output, hraw, hpost⟩
  · rw [hraw] at hraw'
    cases hraw'
  · rw [hraw] at hraw'
    cases hraw'
    rw [hpost] at hpost'
    cases hpost'

theorem failureReported_iff (callId : String) {message : String} :
    FailureReported context definition toolInput message
      ↔ afterFailure context definition callId toolInput message
        = .ok (directResult definition callId .error message) := by
  unfold FailureReported afterFailure
  cases dispatchPostToolUseFailure context definition toolInput message with
  | error m => simp
  | ok u => simp

theorem afterFailure_cases (context : ToolContext) (definition : Tool)
    (callId : String) (toolInput : ToolInput) (message : String) :
    FailureReported context definition toolInput message
      ∨ ∃ m, afterFailure context definition callId toolInput message
        = .error m := by
  unfold FailureReported afterFailure
  cases dispatchPostToolUseFailure context definition toolInput message with
  | error m => exact Or.inr ⟨m, rfl⟩
  | ok u => exact Or.inl rfl

end Tool

-- ========= two endings

section Endings

variable {context : ToolContext} {definition : Tool} {raw : ToolInput}
  {envelope : ToolCallEnvelope}

/-- The two ways, as what each makes of the common part. -/
structure Both (context : ToolContext) (definition : Tool)
    (raw : ToolInput) (envelope : ToolCallEnvelope) : Prop where
  direct : (executeToolCall context definition envelope.toolUseId raw).run {}
    = (caught context definition envelope.toolUseId raw
        ((clearance context definition raw
          >>= finishDirect context definition envelope.toolUseId).run {}).1,
      ((clearance context definition raw
        >>= finishDirect context definition envelope.toolUseId).run {}).2)
  resolved : observeToolCall context envelope raw
    = clearance context definition raw >>= fun clear =>
        finishResolve definition envelope definition.name clear
          >>= scheduleCall context

theorem both {context : ToolContext} {definition : Tool} (raw : ToolInput)
    {envelope : ToolCallEnvelope} (h : Aliased context.toolRegistry)
    (hget : context.toolRegistry.get envelope.rawToolName = some definition)
    (hgate : gateDenies context envelope.rawToolName = false) :
    Both context definition raw envelope := by
  refine ⟨?_, observeToolCall_eq context definition envelope definition.name
    raw ?_ ?_ hgate⟩
  · rw [run_executeToolCall, executeBody_eq_clearance]
  · unfold resolveCanonicalToolName
    rw [hget]
  · exact Registries.get_of_entry (h.get?_name (h.get_matches hget).1)

theorem agree_of_stop (h : Both context definition raw envelope)
    {clear : Clearance} {log : CallLog}
    (hrun : (clearance context definition raw).run {} = (.ok clear, log))
    (hstop : clear = .blocked ∨ (∃ message, clear = .invalid message)
      ∨ ∃ behavior message toolInput,
        clear = .denied behavior message toolInput) :
    Agree ((executeToolCall context definition envelope.toolUseId raw).run {})
      ((observeToolCall context envelope raw).run {}) := by
  have hclear : ∀ toolInput, clear ≠ .cleared toolInput := by
    intro toolInput heq
    rcases hstop with rfl | ⟨_, rfl⟩ | ⟨_, _, _, rfl⟩
    · cases heq
    · cases heq
    · cases heq
  obtain ⟨o, ho, hstatus⟩ := run_stopped context definition envelope
    definition.name log hclear
  rw [h.direct, h.resolved, Method.run_bind_of_ok hrun,
    Method.run_bind_of_ok hrun, ho]
  rcases hstop with rfl | ⟨message, rfl⟩ | ⟨behavior, message, toolInput, rfl⟩
  · refine ⟨_, o, rfl, rfl, rfl, ?_⟩
    rw [hstatus]
    exact ⟨by simp [directResult, stopStatus],
      by simp [directResult, stopStatus]⟩
  · refine ⟨_, o, rfl, rfl, rfl, ?_⟩
    rw [hstatus]
    exact ⟨by simp [directResult, stopStatus],
      by simp [directResult, stopStatus]⟩
  · refine ⟨_, o, rfl, rfl, rfl, ?_⟩
    have hdenied : o.status = deniedStatus behavior := hstatus
    rw [hdenied]
    by_cases hask : behavior = .ask
    · simp [directResult, deniedStatus, isDenied, hask]
    · simp [directResult, deniedStatus, isDenied, hask]

theorem agree_malformed_iff (h : Both context definition raw envelope)
    {message : String} {log : CallLog}
    (hrun : (clearance context definition raw).run {}
      = (.ok (.malformed message), log)) :
    Agree ((executeToolCall context definition envelope.toolUseId raw).run {})
      ((observeToolCall context envelope raw).run {})
      ↔ FailureReported context definition raw message := by
  have hclear : ∀ toolInput,
      Clearance.malformed message ≠ .cleared toolInput :=
    fun _ heq => by cases heq
  obtain ⟨o, ho, hstatus⟩ := run_stopped context definition envelope
    definition.name log hclear
  rw [h.direct, h.resolved, Method.run_bind_of_ok hrun,
    Method.run_bind_of_ok hrun, ho]
  rcases afterFailure_cases context definition envelope.toolUseId raw
    message with hreport | ⟨m, herror⟩
  · refine iff_of_true ?_ hreport
    refine ⟨_, o, (failureReported_iff _).1 hreport, rfl, rfl, ?_⟩
    rw [hstatus]
    exact ⟨by simp [directResult, stopStatus],
      by simp [directResult, stopStatus]⟩
  · refine iff_of_false ?_ fun hreport => ?_
    · intro ⟨r, _, hr, _⟩
      have heq := herror.symm.trans hr
      cases heq
    · rw [failureReported_iff envelope.toolUseId, herror]
        at hreport
      cases hreport

theorem agree_invoked_iff {toolInput : ToolInput}
    {semantics : ResolvedToolExecutionSemantics}
    {r : Except String ToolCallResult}
    (htool : Invoked context definition envelope.toolUseId toolInput r)
    (lane : Option ToolSchedulerLane) (log : CallLog) :
    Agree (caught context definition envelope.toolUseId raw r, log)
      (.ok (settled context definition
        (scheduledCall definition envelope definition.name semantics
          toolInput lane) toolInput r), log)
      ↔ (∀ message, ToolRaises context definition toolInput message →
          FailureReported context definition raw message
            ∧ FailureReported context definition toolInput message)
        ∧ ∀ rawOutput, ToolReturns context definition toolInput rawOutput →
          ¬ Unbuildable context.conflictKey
              (scheduledCall definition envelope definition.name semantics
                toolInput none)
              (mapToolOutput definition.name envelope.toolUseId rawOutput)
            ∧ ¬ FailingExit
              (scheduledCall definition envelope definition.name semantics
                toolInput none)
              (mapToolOutput definition.name envelope.toolUseId
                rawOutput) := by
  -- a result agrees with its outcome where the outcome is built from it
  have hbuilt : ∀ (result : ToolCallResult),
      Agree (.ok result, log)
        (.ok (buildOutcome context.conflictKey
          (scheduledCall definition envelope definition.name semantics
            toolInput lane) result 0).1, log)
        ↔ ¬ Unbuildable context.conflictKey
              (scheduledCall definition envelope definition.name semantics
                toolInput none) result
            ∧ ¬ FailingExit
              (scheduledCall definition envelope definition.name semantics
                toolInput none) result := by
    intro result
    have hagrees : _ ↔ ¬ Unbuildable context.conflictKey
          (scheduledCall definition envelope definition.name semantics
            toolInput lane) result
        ∧ ¬ FailingExit
          (scheduledCall definition envelope definition.name semantics
            toolInput lane) result := buildOutcome_agrees_iff
    refine Iff.trans ?_ hagrees
    refine ⟨fun ⟨r, o, hr, ho, _, hstatus⟩ => ?_,
      fun ⟨o, ho, hstatus⟩ => ⟨result, o, rfl, ?_, rfl, hstatus⟩⟩
    · cases hr
      exact ⟨o, Except.ok.inj ho, hstatus⟩
    · exact congrArg Except.ok ho
  cases htool with
  | raises message hraise =>
    have hid : (scheduledCall definition envelope definition.name semantics
        toolInput lane).toolUseId = envelope.toolUseId := rfl
    unfold settled
    rw [hid]
    unfold caught
    dsimp only
    rcases afterFailure_cases context definition envelope.toolUseId raw
      message with hraw | ⟨m, hraw⟩
    · rw [(failureReported_iff envelope.toolUseId).1 hraw]
      rcases afterFailure_cases context definition envelope.toolUseId
        toolInput message with hinput | ⟨m, hinput⟩
      · rw [(failureReported_iff envelope.toolUseId).1 hinput]
        refine iff_of_true ((hbuilt _).2
          (built_of_unsuccessful (by simp [directResult])))
          ⟨fun m hm => ?_, fun out hout => absurd hout
            hraise.not_returns⟩
        rw [hraise.unique hm]
        exact ⟨hraw, hinput⟩
      · rw [hinput]
        refine iff_of_false (fun ⟨_, _, _, ho, _⟩ => ?_) fun hall => ?_
        · cases ho
        · have hreport := (failureReported_iff envelope.toolUseId).1
            (hall.1 message hraise).2
          rw [hinput] at hreport
          cases hreport
    · rw [hraw]
      refine iff_of_false (fun ⟨_, _, hr, _⟩ => ?_) fun hall => ?_
      · cases hr
      · have hreport := (failureReported_iff envelope.toolUseId).1
          (hall.1 message hraise).1
        rw [hraw] at hreport
        cases hreport
  | returns rawOutput hreturn =>
    refine (hbuilt _).trans ⟨fun h => ⟨fun m hm => ?_,
      fun out hout => ?_⟩, fun h => h.2 rawOutput hreturn⟩
    · exact absurd hreturn hm.not_returns
    · rw [hreturn.unique hout]
      exact h
  | stops result hstatus hraise hreturn =>
    refine iff_of_true ?_ ⟨fun m hm => absurd hm (hraise m),
      fun out hout => absurd hout (hreturn out)⟩
    exact (hbuilt result).2 (built_of_unsuccessful hstatus)

theorem agree_cleared_iff (h : Both context definition raw envelope)
    {toolInput : ToolInput} {semantics : ResolvedToolExecutionSemantics}
    {log : CallLog}
    (hrun : (clearance context definition raw).run {}
      = (.ok (.cleared toolInput), log))
    (hsched : Schedulable context definition toolInput semantics) :
    Agree ((executeToolCall context definition envelope.toolUseId raw).run {})
      ((observeToolCall context envelope raw).run {})
      ↔ (∀ message, ToolRaises context definition toolInput message →
          FailureReported context definition raw message
            ∧ FailureReported context definition toolInput message)
        ∧ ∀ rawOutput, ToolReturns context definition toolInput rawOutput →
          ¬ Unbuildable context.conflictKey
              (scheduledCall definition envelope definition.name semantics
                toolInput none)
              (mapToolOutput definition.name envelope.toolUseId rawOutput)
            ∧ ¬ FailingExit
              (scheduledCall definition envelope definition.name semantics
                toolInput none)
              (mapToolOutput definition.name envelope.toolUseId
                rawOutput) := by
  obtain ⟨lane, hlane⟩ := run_scheduled context definition envelope
    definition.name log hsched
  rw [h.direct, h.resolved, Method.run_bind_of_ok hrun,
    Method.run_bind_of_ok hrun, hlane]
  have htool := invoked context definition envelope.toolUseId toolInput log
  -- from here on the two ways differ only in what they make of the tool
  have hdirect : (finishDirect context definition envelope.toolUseId
      (.cleared toolInput)).run log
      = (invokeTool context definition envelope.toolUseId toolInput).run log :=
    rfl
  rw [hdirect]
  generalize (invokeTool context definition envelope.toolUseId
    toolInput).run log = r at htool ⊢
  obtain ⟨r, after⟩ := r
  exact agree_invoked_iff htool lane after

/-- Past the gate, the two ways agree exactly where nothing happens to the
call that they treat differently. -/
theorem agree_iff_uneventful (h : Both context definition raw envelope) :
    Agree ((executeToolCall context definition envelope.toolUseId raw).run {})
      ((observeToolCall context envelope raw).run {})
      ↔ Uneventful context definition raw envelope := by
  cases hrun : (clearance context definition raw).run {} with
  | mk r log =>
    have hresult : ((clearance context definition raw).run {}).1 = r := by
      rw [hrun]
    -- without a cleared call nothing is asked of the tool
    have hnotool : (∀ toolInput, r ≠ .ok (.cleared toolInput)) →
        ∀ toolInput,
          ¬ ReachesTool context definition raw {} toolInput := by
      intro hr toolInput hreach
      exact hr toolInput (hresult.symm.trans (reachesTool_iff.1 hreach))
    have hschema : (∀ message, r ≠ .ok (.malformed message)) →
        ∀ message, definition.body.validateInputSchema raw
          ≠ .error message := by
      intro hr message hm
      exact hr message (hresult.symm.trans (malformed_iff.2 hm))
    cases r with
    | error message =>
      refine iff_of_false (fun ⟨_, _, _, ho, _⟩ => ?_) fun hun => ?_
      · rw [h.resolved, Method.run_bind_of_error hrun] at ho
        cases ho
      · exact hun.unraised (raisesBeforeTool_iff.2
          (Or.inl ⟨message, hresult⟩))
    | ok clear =>
      -- what does not stop with an exception, and is not cleared
      have hquiet : (∀ toolInput, clear ≠ .cleared toolInput) →
          ¬ RaisesBeforeTool context definition raw := by
        intro hclear hraise
        rcases raisesBeforeTool_iff.1 hraise with
          ⟨message, hm⟩ | ⟨toolInput, hm, -⟩
        · cases hresult.symm.trans hm
        · exact hclear toolInput
            (Except.ok.inj (hresult.symm.trans hm))
      have huneventful : (∀ toolInput, clear ≠ .cleared toolInput) →
          (∀ message,
            definition.body.validateInputSchema raw = .error message →
            FailureReported context definition raw message) →
          Uneventful context definition raw envelope := by
        intro hclear hreport
        have hnone := hnotool fun i heq => hclear i (Except.ok.inj heq)
        exact ⟨hquiet hclear, hreport,
          fun i _ hreach => absurd hreach (hnone i),
          fun i _ _ hreach => absurd hreach (hnone i)⟩
      cases clear with
      | malformed message =>
        rw [agree_malformed_iff h hrun]
        refine ⟨fun hreport => ?_, fun hun =>
          hun.schema message (malformed_iff.1 hresult)⟩
        refine huneventful (fun _ heq => by cases heq) fun m hm => ?_
        have heq := (malformed_iff.2 hm).symm.trans hresult
        cases heq
        exact hreport
      | cleared toolInput =>
        have hreach := reachesTool_iff.2 hresult
        by_cases hsched : ∃ semantics,
            Schedulable context definition toolInput semantics
        · obtain ⟨semantics, hsem⟩ := hsched
          rw [agree_cleared_iff h hrun hsem]
          have hone : ∀ input,
              ReachesTool context definition raw {} input →
              input = toolInput := by
            intro input hinput
            have heq := (reachesTool_iff.1 hinput).symm.trans hresult
            cases heq
            rfl
          refine ⟨fun ⟨htool, hreturn⟩ => ⟨fun hraise => ?_,
            fun m hm => ?_, fun input m hinput => ?_,
            fun input sem out hinput hsem' => ?_⟩,
            fun hun => ⟨fun m => hun.tool toolInput m hreach,
              fun out => hun.result toolInput semantics out hreach
                hsem.1⟩⟩
          · rcases raisesBeforeTool_iff.1 hraise with
              ⟨message, hm⟩ | ⟨input, hm, hnone⟩
            · cases hresult.symm.trans hm
            · have heq := hone input (reachesTool_iff.2 hm)
              rw [heq] at hnone
              exact hnone semantics hsem
          · exact absurd hm (hschema (fun _ heq => by cases heq) m)
          · rw [hone input hinput]
            exact htool m
          · rw [hone input hinput] at hsem' ⊢
            have heq := hsem.1.symm.trans hsem'
            cases heq
            exact hreturn out
        · obtain ⟨message, hmessage⟩ := run_unschedulable context
            definition envelope definition.name log
            fun semantics hsem => hsched ⟨semantics, hsem⟩
          refine iff_of_false (fun ⟨_, _, _, ho, _⟩ => ?_)
            fun hun => ?_
          · rw [h.resolved, Method.run_bind_of_ok hrun, hmessage] at ho
            cases ho
          · exact hun.unraised (raisesBeforeTool_iff.2 (Or.inr
              ⟨toolInput, hresult,
                fun semantics hsem => hsched ⟨semantics, hsem⟩⟩))
      | blocked =>
        refine iff_of_true (agree_of_stop h hrun (Or.inl rfl))
          (huneventful (fun _ heq => by cases heq) fun m hm => ?_)
        exact absurd hm (hschema (fun _ heq => by cases heq) m)
      | invalid message =>
        refine iff_of_true
          (agree_of_stop h hrun (Or.inr (Or.inl ⟨message, rfl⟩)))
          (huneventful (fun _ heq => by cases heq) fun m hm => ?_)
        exact absurd hm (hschema (fun _ heq => by cases heq) m)
      | denied behavior message toolInput =>
        refine iff_of_true
          (agree_of_stop h hrun
            (Or.inr (Or.inr ⟨behavior, message, toolInput, rfl⟩)))
          (huneventful (fun _ heq => by cases heq) fun m hm => ?_)
        exact absurd hm (hschema (fun _ heq => by cases heq) m)

end Endings

-- ========== the result

/-- A call the gate of the pool turns away is not executed on the resolved
way, and agrees exactly where the direct way denies it. -/
theorem agree_iff_denied {context : ToolContext} {definition : Tool}
    {raw : ToolInput} {envelope : ToolCallEnvelope}
    (h : Aliased context.toolRegistry)
    (hget : context.toolRegistry.get envelope.rawToolName = some definition)
    (hgate : gateDenies context envelope.rawToolName = true) :
    Agree ((executeToolCall context definition envelope.toolUseId raw).run {})
      ((observeToolCall context envelope raw).run {})
      ↔ DeniedBeforeTool context definition raw := by
  have hresolve : resolveToolCall context envelope raw
      = pure (deniedCall envelope definition.name definition .denied
          ("Tool '" ++ envelope.rawToolName
            ++ "' is not available in the current execution policy")
          none) := by
    unfold resolveToolCall resolveCanonicalToolName
    rw [hget]
    dsimp only
    rw [Registries.get_of_entry (h.get?_name (h.get_matches hget).1)]
    exact if_pos hgate
  rw [run_turnedAway hresolve (by simp [deniedCall, resolvedCall]),
    run_executeToolCall, executeBody_eq_clearance, deniedBeforeTool_iff]
  have hexecuted := clearance_unexecuted context definition raw {}
  -- a result that is not denied, or none at all
  have hno : ∀ {r : Except String ToolCallResult} {log : CallLog}
      {o : ToolOutcome}, o.status = .denied →
      (∀ result, r = .ok result → ¬ isDenied result.status) →
      ¬ Agree (r, log) (.ok (some o), {}) := by
    intro r log o ho hr hagree
    obtain ⟨result, outcome, hres, hout, _, _, hden⟩ := hagree
    cases hout
    exact hr result hres (hden.2 (Or.inl ho))
  have hafter : ∀ message result,
      afterFailure context definition envelope.toolUseId raw message
        = .ok result → ¬ isDenied result.status := by
    intro message result hr
    unfold afterFailure at hr
    split at hr
    · cases hr
    · cases hr
      simp [directResult, isDenied]
  have hyes : ∀ (message : String) (log : CallLog), log.executed = [] →
      Agree (.ok (directResult definition envelope.toolUseId .denied message),
          log)
        (.ok (some (syntheticOutcome
          { (deniedCall envelope definition.name definition .denied
              ("Tool '" ++ envelope.rawToolName
                ++ "' is not available in the current execution policy")
              none).toResolvedToolCall with schedulerLane := none } 0)),
          {}) := by
    intro message log hlog
    refine ⟨_, _, rfl, rfl, hlog, ?_, ?_⟩
    · rw [syntheticOutcome_deniedCall]
      simp [directResult]
    · rw [syntheticOutcome_deniedCall]
      simp [directResult]
  cases hrun : (clearance context definition raw).run {} with
  | mk r log =>
    rw [hrun] at hexecuted
    cases r with
    | error message =>
      rw [Method.run_bind_of_error hrun]
      refine iff_of_false (hno rfl (hafter message)) ?_
      simp
    | ok clear =>
      rw [Method.run_bind_of_ok hrun]
      cases clear with
      | malformed message =>
        exact iff_of_false (hno rfl (hafter message)) (by simp)
      | invalid message =>
        refine iff_of_false (hno rfl fun result hr => ?_) (by simp)
        cases hr
        simp [directResult, isDenied]
      | blocked => exact iff_of_true (hyes _ log hexecuted) (by simp)
      | denied behavior message toolInput =>
        exact iff_of_true (hyes _ log hexecuted) (by simp)
      | cleared toolInput =>
        refine iff_of_false ?_ (by simp)
        -- either the tool has no executor, or it is executed
        intro hagree
        obtain ⟨result, outcome, hres, hout, hsame, _, hden⟩ := hagree
        cases hout
        have htool : ((finishDirect context definition
            envelope.toolUseId (.cleared toolInput)).run log).2.executed
            = _ := executed_invokeTool envelope.toolUseId toolInput log
        cases hexec : definition.body.execute with
        | some execute =>
          rw [htool, hexec] at hsame
          simp at hsame
        | none =>
          have hresult : (finishDirect context definition
              envelope.toolUseId (.cleared toolInput)).run log
              = (.ok (directResult definition envelope.toolUseId
                  .error ("Tool '" ++ definition.name
                    ++ "' has no execution handler")), log) := by
            show (invokeTool context definition envelope.toolUseId
              toolInput).run log = _
            unfold invokeTool
            rw [hexec]
            rfl
          rw [hresult] at hres
          cases hres
          have hdenied := hden.2 (Or.inl rfl)
          simp [directResult, isDenied] at hdenied

/-- The two ways agree on a call of a registered tool exactly where
nothing happens to the call that they treat differently, and, if the gate
turns it away, where the direct way denies it as well. -/
theorem agree_iff {calls : List (Registries.RegistryCall ToolCallables)}
    {context : ToolContext} {definition : Tool} {envelope : ToolCallEnvelope}
    (hreach : (Registries.registrySystem ToolCallables).Visits
      Registries.ToolRegistry.empty calls context.toolRegistry)
    (hget : context.toolRegistry.get envelope.rawToolName = some definition)
    (raw : ToolInput) :
    Agree ((executeToolCall context definition envelope.toolUseId raw).run {})
      ((observeToolCall context envelope raw).run {})
      ↔ (gateDenies context envelope.rawToolName = true →
          DeniedBeforeTool context definition raw)
        ∧ (gateDenies context envelope.rawToolName = false →
          Uneventful context definition raw envelope) := by
  have h := Registries.aliased_visits hreach
  cases hgate : gateDenies context envelope.rawToolName with
  | true =>
    rw [agree_iff_denied h hget hgate]
    simp
  | false =>
    rw [agree_iff_uneventful (both raw h hget hgate)]
    simp

-- ========= a validator

theorem echo_found :
    unpooled.toolRegistry.get echoCall.rawToolName = some echo := rfl

/-- The comparison of the echo tool. -/
theorem agree_echo :
    (Registries.registrySystem ToolCallables).Visits
        Registries.ToolRegistry.empty [.register echo] unpooled.toolRegistry
      ∧ unpooled.toolRegistry.get echoCall.rawToolName = some echo
      ∧ (Agree ((executeToolCall unpooled echo echoCall.toolUseId []).run {})
          ((observeToolCall unpooled echoCall []).run {})
        ↔ (gateDenies unpooled echoCall.rawToolName = true →
            DeniedBeforeTool unpooled echo [])
          ∧ (gateDenies unpooled echoCall.rawToolName = false →
            Uneventful unpooled echo [] echoCall)) :=
  ⟨unpooled_visits, echo_found, agree_iff unpooled_visits echo_found []⟩

/-- A tool whose validator raises. -/
def brittle : Tool where
  name := "brittle"
  aliases := []
  origin := ⟨.user, none⟩
  body :=
    { validateInputSchema := .ok
      validateInput := some fun _ => .error "no such field"
      execute := some fun _ => .ok (.value .none) }

def brittleContext : ToolContext where
  toolRegistry := (Registries.ToolRegistry.empty.register brittle).2

/-- The direct way ends with an error result; on the resolved way the
exception leaves `observe_tool_call`, and the call has no outcome. -/
theorem validator_exception_escapes :
    (∃ result,
      ((executeToolCall brittleContext brittle "call-1" []).run {}).1
        = .ok result)
      ∧ ((observeToolCall brittleContext
          ⟨"call-1", 0, "brittle", "message-1"⟩ []).run {}).1
        = .error "no such field"
      ∧ ¬ Agree ((executeToolCall brittleContext brittle "call-1" []).run {})
        ((observeToolCall brittleContext
          ⟨"call-1", 0, "brittle", "message-1"⟩ []).run {}) := by
  have hraise : ((observeToolCall brittleContext
      ⟨"call-1", 0, "brittle", "message-1"⟩ []).run {}).1
      = .error "no such field" := rfl
  refine ⟨⟨_, rfl⟩, hraise, fun ⟨_, _, _, hresolved, _⟩ => ?_⟩
  rw [hraise] at hresolved
  cases hresolved

end WeaveRuntime.Tools
