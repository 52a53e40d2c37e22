/-
What the two ways of executing a tool call have in common.

Both are one procedure up to the permission: check the input against the
schema, validate it, dispatch the pre-tool hook, check permissions, ask
the permission service. `clearance` is that procedure, and it says where a
call stops: at the schema (`malformed`), at the validator (`invalid`), at
a hook (`blocked`), at a permission (`denied`), or nowhere (`cleared`).

The `try` block of `executeToolCall` and the first half of the resolved
way are `clearance`, followed by what each makes of its answer
(`executeBody_eq_clearance`, `resolveDefinition_eq_clearance`). Where they
differ is what becomes of an exception in it.

`ReachesHook`, `ReachesCheck` and `ReachesPermission` are the stages on
the way, as relations of a raw input and what a call has at that stage.
-/
import WeaveRuntime.Tools.Procedure

namespace WeaveRuntime.Tools

open Lib
open Permissions (HookEffect PermissionTrace)

-- ===== the common part

inductive Clearance where
  | malformed (message : String)
  | invalid (message : Option String)
  | blocked
  | denied (behavior : PermissionBehavior) (message : String)
      (toolInput : ToolInput)
  | cleared (toolInput : ToolInput)

section Context

variable (context : ToolContext) (definition : Tool)

def answer (decision : PermissionDecision) (toolInput : ToolInput) :
    Clearance :=
  if decision.behavior ≠ .allow then
    .denied decision.behavior
      (orDefault decision.message "Tool use denied") toolInput
  else
    .cleared toolInput

/-- The permission service's part, or the handler's. -/
def grant (hook : HookEffect) (toolInput : ToolInput)
    (decision : PermissionDecision) : Method CallLog String Clearance :=
  match context.runtimeServices with
  | some services => do
    let decision ← CallLog.permitted
      (services.authorize definition toolInput decision hook)
    pure (answer decision (orInput decision.updatedInput toolInput))
  | none =>
    if decision.behavior = .ask then
      match context.permissionHandler with
      | none =>
        pure (.denied .deny
          (orDefault decision.message "Permission required") toolInput)
      | some permissionHandler => do
        CallLog.askedHandler toolInput
        let decision ← Method.lift
          (permissionHandler definition toolInput decision)
        pure (answer decision (orInput decision.updatedInput toolInput))
    else
      pure (answer decision toolInput)

def clearChecked (hook : HookEffect) (toolInput : ToolInput) :
    Method CallLog String Clearance := do
  let decision ← Method.lift (checkPermissions definition toolInput)
  grant context definition hook (orInput decision.updatedInput toolInput)
    decision

/-- The procedure both ways start with. -/
def clearance (toolInput : ToolInput) : Method CallLog String Clearance :=
  match definition.body.validateInputSchema toolInput with
  | .error message => pure (.malformed message)
  | .ok toolInput => do
    let validation ← Method.lift (validateInput definition toolInput)
    match validation with
    | .invalid message => pure (.invalid message)
    | .valid toolInput => do
      let hook ← Method.lift
        (dispatchPreToolUse context definition toolInput)
      let toolInput := hook.updatedInput.getD toolInput
      if !hook.continueExecution then
        pure .blocked
      else
        clearChecked context definition hook toolInput

-- ========= two endings

def invokeTool (callId : String) (toolInput : ToolInput) :
    Method CallLog String ToolCallResult :=
  match definition.body.execute with
  | none =>
    pure (directResult definition callId .error
      ("Tool '" ++ definition.name ++ "' has no execution handler"))
  | some execute => do
    CallLog.invoked definition toolInput
    let rawOutput ← Method.lift (execute toolInput)
    let postToolHook ← Method.lift
      (dispatchPostToolUse context definition toolInput rawOutput)
    if !postToolHook.continueExecution then
      pure (directResult definition callId .denied
        "Tool result blocked by runtime hook")
    else
      pure (mapToolOutput definition.name callId rawOutput)

/-- What `execute_tool_call` makes of the answer. -/
def finishDirect (callId : String) :
    Clearance → Method CallLog String ToolCallResult
  | .malformed message => Method.raise message
  | .invalid message =>
    pure (directResult definition callId .error
      (orDefault message "Tool input validation failed"))
  | .blocked =>
    pure (directResult definition callId .denied
      "Tool use blocked by runtime hook")
  | .denied _ message _ =>
    pure (directResult definition callId .denied message)
  | .cleared toolInput => invokeTool context definition callId toolInput

/-- What `resolve_tool_call` makes of the answer. -/
def finishResolve (envelope : ToolCallEnvelope) (canonicalToolName : String) :
    Clearance → Method CallLog String PreparedCall
  | .malformed _ => pure (invalidCall envelope canonicalToolName definition)
  | .invalid _ => pure (invalidCall envelope canonicalToolName definition)
  | .blocked =>
    pure (deniedCall envelope canonicalToolName definition .denied
      "Tool use blocked by runtime hook" none)
  | .denied behavior message toolInput =>
    pure (deniedCall envelope canonicalToolName definition
      (deniedStatus behavior) message (some toolInput))
  | .cleared toolInput => do
    let semantics ← Method.lift
      (resolveExecutionSemantics definition toolInput)
    pure (resolvedCall envelope canonicalToolName definition .executable
      (some semantics) (some .allowed) (some toolInput))

theorem orDefault_orDefault {reason : Option String} {default other : String}
    (h : default ≠ "") :
    orDefault (some (orDefault reason default)) other
      = orDefault reason default := by
  have hne : orDefault reason default ≠ "" := by
    unfold orDefault
    split
    · split
      · exact h
      · next hr => exact hr
    · exact h
  exact if_neg hne

theorem executePermitted_eq (callId : String)
    (decision : PermissionDecision) (toolInput : ToolInput) :
    executePermitted context definition callId decision toolInput
      = finishDirect context definition callId
          (answer decision toolInput) := by
  unfold executePermitted answer
  split
  · rfl
  · rfl

theorem resolvePermitted_eq (envelope : ToolCallEnvelope)
    (canonicalToolName : String) (decision : PermissionDecision)
    (toolInput : ToolInput) :
    resolvePermitted envelope canonicalToolName definition decision
        toolInput
      = finishResolve definition envelope canonicalToolName
          (answer decision toolInput) := by
  unfold resolvePermitted answer
  split
  · rfl
  · rfl

theorem executeChecked_eq (callId : String) (hook : HookEffect)
    (toolInput : ToolInput) :
    executeChecked context definition callId hook toolInput
      = clearChecked context definition hook toolInput
        >>= finishDirect context definition callId := by
  unfold executeChecked clearChecked
  rw [bind_assoc]
  refine bind_congr fun decision => ?_
  unfold grant
  cases context.runtimeServices with
  | some services =>
    rw [bind_assoc]
    refine bind_congr fun decision => ?_
    rw [pure_bind, executePermitted_eq]
  | none =>
    dsimp only
    split
    · cases context.permissionHandler with
      | none => rfl
      | some permissionHandler =>
        rw [bind_assoc]
        refine bind_congr fun _ => ?_
        rw [bind_assoc]
        refine bind_congr fun decision => ?_
        rw [pure_bind, executePermitted_eq]
    · rw [pure_bind, executePermitted_eq]

/-- The `try` block of the direct way is the common part and its ending. -/
theorem executeBody_eq_clearance (callId : String) (toolInput : ToolInput) :
    executeBody context definition callId toolInput
      = clearance context definition toolInput
        >>= finishDirect context definition callId := by
  unfold executeBody clearance
  cases definition.body.validateInputSchema toolInput with
  | error message => rfl
  | ok toolInput =>
    dsimp only
    rw [bind_assoc]
    show (Method.lift (validateInput definition toolInput) >>= _) = _
    refine bind_congr fun validation => ?_
    cases validation with
    | invalid message => rfl
    | valid toolInput =>
      dsimp only
      rw [bind_assoc]
      refine bind_congr fun hook => ?_
      split
      · rfl
      · exact executeChecked_eq context definition callId hook _

theorem resolveChecked_eq (envelope : ToolCallEnvelope)
    (canonicalToolName : String) (hook : HookEffect) (toolInput : ToolInput) :
    resolveChecked context envelope canonicalToolName definition hook
        toolInput
      = clearChecked context definition hook toolInput
        >>= finishResolve definition envelope canonicalToolName := by
  unfold resolveChecked clearChecked
  rw [bind_assoc]
  refine bind_congr fun decision => ?_
  unfold grant
  cases context.runtimeServices with
  | some services =>
    rw [bind_assoc]
    refine bind_congr fun decision => ?_
    rw [pure_bind, resolvePermitted_eq]
  | none =>
    dsimp only
    split
    · cases context.permissionHandler with
      | none =>
        rw [resolvePermitted_eq, pure_bind]
        unfold answer
        rw [if_pos (by simp), orDefault_orDefault (by simp)]
      | some permissionHandler =>
        rw [bind_assoc]
        refine bind_congr fun _ => ?_
        rw [bind_assoc]
        refine bind_congr fun decision => ?_
        rw [pure_bind, resolvePermitted_eq]
    · rw [pure_bind, resolvePermitted_eq]

/-- The first half of the resolved way is the common part and its
ending. -/
theorem resolveDefinition_eq_clearance (envelope : ToolCallEnvelope)
    (canonicalToolName : String) (toolInput : ToolInput) :
    resolveDefinition context envelope canonicalToolName definition toolInput
      = clearance context definition toolInput
        >>= finishResolve definition envelope canonicalToolName := by
  unfold resolveDefinition clearance
  cases definition.body.validateInputSchema toolInput with
  | error message => rfl
  | ok toolInput =>
    dsimp only
    rw [bind_assoc]
    refine bind_congr fun validation => ?_
    cases validation with
    | invalid message => rfl
    | valid toolInput =>
      dsimp only
      rw [bind_assoc]
      refine bind_congr fun hook => ?_
      split
      · rfl
      · exact resolveChecked_eq context definition envelope
          canonicalToolName hook _

-- ============== stages

section Stages

variable (raw : ToolInput)

/-- The schema check and the validator let the call through to the
pre-tool hook, with this input. -/
inductive ReachesHook : ToolInput → Prop
  | intro (normalized input : ToolInput)
      (hschema : definition.body.validateInputSchema raw = .ok normalized)
      (hvalid : validateInput definition normalized = .ok (.valid input)) :
      ReachesHook input

/-- The hook lets it through to the tool's permission check. -/
inductive ReachesCheck : HookEffect → ToolInput → Prop
  | intro (input : ToolInput) (hook : HookEffect)
      (hreach : ReachesHook definition raw input)
      (hhook : dispatchPreToolUse context definition input = .ok hook)
      (hgo : hook.continueExecution = true) :
      ReachesCheck hook (hook.updatedInput.getD input)

/-- The check answers, and the call gets to the permission service. -/
inductive ReachesPermission :
    HookEffect → ToolInput → PermissionDecision → Prop
  | intro (input : ToolInput) (hook : HookEffect)
      (decision : PermissionDecision)
      (hreach : ReachesCheck context definition raw hook input)
      (hcheck : checkPermissions definition input = .ok decision) :
      ReachesPermission hook (orInput decision.updatedInput input) decision

inductive ReachesTool (log : CallLog) : ToolInput → Prop
  | intro (hook : HookEffect) (input toolInput : ToolInput)
      (decision : PermissionDecision)
      (hreach : ReachesPermission context definition raw hook input decision)
      (hgrant : ((grant context definition hook input decision).run log).1
        = .ok (.cleared toolInput)) :
      ReachesTool log toolInput

/-- Where a call stops on the way, with the outcome and the log that
follow. -/
inductive Stops (log : CallLog) : Except String Clearance × CallLog → Prop
  | schema (message : String)
      (hschema : definition.body.validateInputSchema raw = .error message) :
      Stops log (.ok (.malformed message), log)
  | validatorRaises (normalized : ToolInput) (message : String)
      (hschema : definition.body.validateInputSchema raw = .ok normalized)
      (hvalid : validateInput definition normalized = .error message) :
      Stops log (.error message, log)
  | validator (normalized : ToolInput) (message : Option String)
      (hschema : definition.body.validateInputSchema raw = .ok normalized)
      (hvalid : validateInput definition normalized
        = .ok (.invalid message)) :
      Stops log (.ok (.invalid message), log)
  | hookRaises (input : ToolInput) (message : String)
      (hreach : ReachesHook definition raw input)
      (hhook : dispatchPreToolUse context definition input
        = .error message) :
      Stops log (.error message, log)
  | hook (input : ToolInput) (hook : HookEffect)
      (hreach : ReachesHook definition raw input)
      (hhook : dispatchPreToolUse context definition input = .ok hook)
      (hstop : hook.continueExecution = false) :
      Stops log (.ok .blocked, log)
  | checkRaises (input : ToolInput) (hook : HookEffect) (message : String)
      (hreach : ReachesCheck context definition raw hook input)
      (hcheck : checkPermissions definition input = .error message) :
      Stops log (.error message, log)
  | permission (hook : HookEffect) (input : ToolInput)
      (decision : PermissionDecision)
      (hreach : ReachesPermission context definition raw hook input
        decision) :
      Stops log ((grant context definition hook input decision).run log)

variable {context definition raw} {log : CallLog}

theorem clearance_of_schema {input : ToolInput}
    (h : definition.body.validateInputSchema raw = .ok input) :
    clearance context definition raw
      = (Method.lift (validateInput definition input) >>= fun validation =>
          match validation with
          | .invalid message => pure (.invalid message)
          | .valid toolInput =>
            Method.lift (dispatchPreToolUse context definition toolInput)
            >>= fun hook =>
              if !hook.continueExecution then pure .blocked
              else clearChecked context definition hook
                (hook.updatedInput.getD toolInput)) := by
  unfold clearance
  rw [h]

theorem run_lift_bind {α β : Type} {x : Except String α} {a : α}
    {f : α → Method CallLog String β} (h : x = .ok a) :
    (Method.lift x >>= f).run log = (f a).run log := by
  rw [h]
  rfl

theorem run_lift_bind_error {α β : Type} {x : Except String α}
    {message : String} {f : α → Method CallLog String β}
    (h : x = .error message) :
    (Method.lift x >>= f).run log = (.error message, log) := by
  rw [h]
  rfl

theorem ReachesHook.run_clearance {input : ToolInput}
    (h : ReachesHook definition raw input) :
    (clearance context definition raw).run log
      = (Method.lift (dispatchPreToolUse context definition input) >>=
          fun hook =>
            if !hook.continueExecution then pure .blocked
            else clearChecked context definition hook
              (hook.updatedInput.getD input)).run log := by
  cases h with
  | intro normalized _ hschema hvalid =>
    rw [clearance_of_schema hschema, run_lift_bind hvalid]

theorem ReachesCheck.run_clearance {hook : HookEffect} {input : ToolInput}
    (h : ReachesCheck context definition raw hook input) :
    (clearance context definition raw).run log
      = (clearChecked context definition hook input).run log := by
  obtain ⟨input, hook, hreach, hhook, hgo⟩ := h
  rw [hreach.run_clearance, run_lift_bind hhook, hgo]
  rfl

theorem Stops.run_eq {r : Except String Clearance × CallLog}
    (h : Stops context definition raw log r) :
    (clearance context definition raw).run log = r := by
  cases h with
  | schema message hschema =>
    unfold clearance
    rw [hschema]
    rfl
  | validatorRaises normalized message hschema hvalid =>
    rw [clearance_of_schema hschema, run_lift_bind_error hvalid]
  | validator normalized message hschema hvalid =>
    rw [clearance_of_schema hschema, run_lift_bind hvalid]
    rfl
  | hookRaises input message hreach hhook =>
    rw [hreach.run_clearance, run_lift_bind_error hhook]
  | hook input hook hreach hhook hstop =>
    rw [hreach.run_clearance, run_lift_bind hhook, hstop]
    rfl
  | checkRaises input hook message hreach hcheck =>
    rw [hreach.run_clearance]
    exact run_lift_bind_error hcheck
  | permission hook input decision hreach =>
    obtain ⟨input, hook, decision, hreach, hcheck⟩ := hreach
    rw [hreach.run_clearance]
    exact run_lift_bind hcheck

theorem stops (context : ToolContext) (definition : Tool)
    (raw : ToolInput) (log : CallLog) :
    Stops context definition raw log
      ((clearance context definition raw).run log) := by
  have hstop : ∃ r, Stops context definition raw log r := by
    cases hschema : definition.body.validateInputSchema raw with
    | error message => exact ⟨_, .schema message hschema⟩
    | ok normalized =>
      cases hvalid : validateInput definition normalized with
      | error message =>
        exact ⟨_, .validatorRaises normalized message hschema hvalid⟩
      | ok validation =>
        cases validation with
        | invalid message =>
          exact ⟨_, .validator normalized message hschema hvalid⟩
        | valid input =>
          have hreach : ReachesHook definition raw input :=
            ⟨normalized, input, hschema, hvalid⟩
          cases hhook : dispatchPreToolUse context definition input with
          | error message =>
            exact ⟨_, .hookRaises input message hreach hhook⟩
          | ok hook =>
            cases hgo : hook.continueExecution with
            | false => exact ⟨_, .hook input hook hreach hhook hgo⟩
            | true =>
              have hreach' := ReachesCheck.intro input hook hreach
                hhook hgo
              cases hcheck : checkPermissions definition
                  (hook.updatedInput.getD input) with
              | error message =>
                exact ⟨_, .checkRaises _ hook message hreach'
                  hcheck⟩
              | ok decision =>
                exact ⟨_, .permission hook _ decision
                  (.intro _ hook decision hreach' hcheck)⟩
  obtain ⟨r, hr⟩ := hstop
  rw [hr.run_eq]
  exact hr

end Stages

end Context

-- ============== frames

/-- Nothing on the way to the tool executes it. -/
def Unexecuted (log log' : CallLog) : Prop := log'.executed = log.executed

theorem grant_unexecuted (context : ToolContext) (definition : Tool)
    (hook : HookEffect) (toolInput : ToolInput)
    (decision : PermissionDecision) :
    Method.Evolves Unexecuted
      (grant context definition hook toolInput decision) := by
  have hrefl : ∀ log, Unexecuted log log := fun _ => rfl
  have htrans : ∀ a b c, Unexecuted a b → Unexecuted b c → Unexecuted a c :=
    fun _ _ _ hab hbc => hbc.trans hab
  have hpart : ∀ {α : Type} (m : Method PermissionTrace String α),
      Method.Evolves Unexecuted (CallLog.permitted m) :=
    fun m log => rfl
  unfold grant
  cases context.runtimeServices with
  | some services =>
    exact Method.evolves_bind htrans (hpart _)
      fun _ => Method.evolves_pure hrefl _
  | none =>
    dsimp only
    split
    · cases context.permissionHandler with
      | none => exact Method.evolves_pure hrefl _
      | some permissionHandler =>
        refine Method.evolves_bind htrans (hpart _) fun _ => ?_
        exact Method.evolves_bind htrans (Method.evolves_lift hrefl _)
          fun _ => Method.evolves_pure hrefl _
    · exact Method.evolves_pure hrefl _

theorem clearance_unexecuted (context : ToolContext) (definition : Tool)
    (raw : ToolInput) (log : CallLog) :
    ((clearance context definition raw).run log).2.executed
      = log.executed := by
  have h := stops context definition raw log
  generalize (clearance context definition raw).run log = r at h ⊢
  cases h with
  | permission hook input decision hreach =>
    exact grant_unexecuted context definition hook input decision log
  | _ => rfl

theorem reachesTool_iff {context : ToolContext} {definition : Tool}
    {raw toolInput : ToolInput} {log : CallLog} :
    ReachesTool context definition raw log toolInput
      ↔ ((clearance context definition raw).run log).1
        = .ok (.cleared toolInput) := by
  refine ⟨fun h => ?_, fun h => ?_⟩
  · obtain ⟨hook, input, _, decision, hreach, hgrant⟩ := h
    have hrun : (clearance context definition raw).run log = _ :=
      (Stops.permission hook input decision hreach).run_eq
    rw [hrun]
    exact hgrant
  · have hs := stops context definition raw log
    generalize (clearance context definition raw).run log = r at h hs
    cases hs with
    | permission hook input decision hreach =>
      exact ⟨hook, input, toolInput, decision, hreach, h⟩
    | _ => cases h

end WeaveRuntime.Tools
