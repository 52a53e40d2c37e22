/-
The input a permission is decided on, and the input that runs.

Four parties write to the input of a call after the schema check: the
validator, the pre-tool hook, the permission check of the tool, and the
permission service. The last one writes nothing of its own unless it asks
a host; but it puts the update of the hook in a second time, over that of
the check (`PermissionEngine.startPayload`), while the snapshot the rules
are matched against is computed from the input it was given. And an update
to the empty mapping counts as none wherever it is put in by `or`.

`intendedInput` is the input with the updates in the order they are made.
`decided_input_iff` says when a call that is allowed without asking a host
runs on it, and is decided on it: exactly when the updates of the hook and
the check get along (`UpdatesAgree`).
-/
import WeaveRuntime.Tools.PoolGate

namespace WeaveRuntime.Tools

open Lib
open Permissions

-- ========== statements

def EngineBacked (context : ToolContext) (engine : PermissionEngine)
    (runtime : RuntimeContext) : Prop :=
  ∀ services, context.runtimeServices = some services →
    services.authorize = fun definition toolInput decision hook =>
      engine.authorize definition toolInput decision (some hook) runtime

/-- The hook's update in place of the validated input, and the check's in
place of that. -/
def intendedInput (hook : HookEffect) (decision : PermissionDecision)
    (validated : ToolInput) : ToolInput :=
  decision.updatedInput.getD (hook.updatedInput.getD validated)

/-- An empty update of the check finds the input empty, and another one
meets no other update of the hook, unless that is empty. -/
def UpdatesAgree (hook : HookEffect) (decision : PermissionDecision)
    (validated : ToolInput) : Prop :=
  ∀ update, decision.updatedInput = some update →
    (update = [] → hook.updatedInput.getD validated = [])
    ∧ (update ≠ [] → ∀ hookUpdate, hook.updatedInput = some hookUpdate →
      hookUpdate = [] ∨ hookUpdate = update)

/-- The rules were matched against snapshots of this input. -/
def MatchedOn (engine : PermissionEngine) (runtime : RuntimeContext)
    (definition : Tool) (toolInput : ToolInput) (log : CallLog) : Prop :=
  ∀ snapshot ∈ log.permissions.snapshots,
    buildRequestSnapshot
        (PermissionEngine.toolRequest definition toolInput runtime)
        (engine.resolveContext runtime.permissionContext) runtime
      = .ok snapshot

/-- The stages of a call up to its permission check. -/
def Checked (context : ToolContext) (definition : Tool) (raw : ToolInput)
    (validated : ToolInput) (hook : HookEffect)
    (decision : PermissionDecision) : Prop :=
  ReachesHook definition raw validated
    ∧ dispatchPreToolUse context definition validated = .ok hook
    ∧ hook.continueExecution = true
    ∧ checkPermissions definition (hook.updatedInput.getD validated)
      = .ok decision

-- ========== the engine

section Engine

variable {engine : PermissionEngine}

theorem applyPolicyStack_updatedInput (context : PermissionContext)
    (request : PermissionRequest) (snapshot : PermissionRequestMatchSnapshot)
    (payload : ToolInput) (baseOutcome : PermissionOutcome) :
    (applyPolicyStack context request snapshot payload
      baseOutcome).updatedInput = some payload := by
  unfold applyPolicyStack
  split
  · rfl
  · rfl

/-- What an evaluation that allows without asking a host did. -/
structure AllowedUnasked (payload : ToolInput)
    (snapshot : PermissionRequestMatchSnapshot) (before : PermissionTrace)
    (outcome : PermissionOutcome) (after : PermissionTrace) : Prop where
  payload : outcome.updatedInput = some payload
  snapshots : ∀ s ∈ after.snapshots, s ∈ before.snapshots ∨ s = snapshot

variable {trace trace' : PermissionTrace}

theorem askHost_asks {mode : Definitions.PermissionMode}
    {outcome after : PermissionOutcome} {payload : ToolInput}
    (h : (engine.askHost mode outcome payload).run trace
      = (.ok after, trace')) (hallow : after.behavior = .allow) :
    trace'.asked ≠ trace.asked := by
  unfold PermissionEngine.askHost at h
  split at h
  · cases h
    cases hallow
  · cases hhost : engine.requestPermission with
    | none =>
      rw [hhost] at h
      cases h
      cases hallow
    | some request =>
      rw [hhost] at h
      dsimp only at h
      rw [Method.run_write_bind] at h
      cases hanswer : request payload with
      | error message =>
        rw [hanswer] at h
        cases h
      | ok answer =>
        rw [hanswer] at h
        cases h
        intro heq
        have hlen := congrArg List.length heq
        simp at hlen

theorem decideRequest_allows {permissionContext : PermissionContext}
    {request : PermissionRequest} {payload : ToolInput}
    {snapshot : PermissionRequestMatchSnapshot}
    {base outcome : PermissionOutcome}
    (h : (engine.decideRequest permissionContext request payload snapshot
      base).run trace = (.ok outcome, trace'))
    (hallow : outcome.behavior = .allow)
    (hasked : trace'.asked = trace.asked) :
    AllowedUnasked payload snapshot trace outcome trace' := by
  unfold PermissionEngine.decideRequest at h
  split at h
  · cases h
    exact ⟨rfl, fun s hs => Or.inl hs⟩
  · rw [Method.run_write_bind] at h
    dsimp only at h
    have hnew : ∀ s ∈ trace.snapshots ++ [snapshot],
        s ∈ trace.snapshots ∨ s = snapshot := by
      intro s hs
      simpa using hs
    split at h
    · cases h
      cases hallow
    · split at h
      · cases h
        exact ⟨applyPolicyStack_updatedInput _ _ _ _ _, hnew⟩
      · have hasks := askHost_asks h hallow
        exact absurd hasked hasks

/-- An authorisation that allows without asking a host returns the payload
it started from, and matched the rules against a snapshot of the input it
was given. -/
theorem authorize_allows {definition : Tool} {toolInput : ToolInput}
    {decision decided : PermissionDecision} {hook : HookEffect}
    {runtime : RuntimeContext} (hgo : hook.continueExecution = true)
    (h : (engine.authorize definition toolInput decision (some hook)
      runtime).run trace = (.ok decided, trace'))
    (hallow : decided.behavior = .allow)
    (hasked : trace'.asked = trace.asked) :
    decided.updatedInput
        = some (hook.updatedInput.getD
          (orInput decision.updatedInput toolInput))
      ∧ ∀ s ∈ trace'.snapshots, s ∈ trace.snapshots
        ∨ buildRequestSnapshot
            (PermissionEngine.toolRequest definition toolInput runtime)
            (engine.resolveContext runtime.permissionContext) runtime
          = .ok s := by
  unfold PermissionEngine.authorize PermissionEngine.evaluate at h
  rw [if_neg (by simp [hgo])] at h
  cases hsnap : buildRequestSnapshot
      (PermissionEngine.toolRequest definition toolInput runtime)
      (engine.resolveContext runtime.permissionContext) runtime with
  | error message =>
    rw [hsnap] at h
    cases h
  | ok snapshot =>
    rw [hsnap, bind_assoc, Method.run_lift_ok_bind] at h
    cases hrun : (engine.decideRequest
        (engine.resolveContext runtime.permissionContext)
        (PermissionEngine.toolRequest definition toolInput runtime)
        (PermissionEngine.startPayload
          (PermissionEngine.toolRequest definition toolInput runtime)
          (.ofDecision decision) (some hook))
        snapshot (.ofDecision decision)).run trace with
    | mk r after =>
      cases r with
      | error message =>
        rw [Method.run_bind_of_error hrun] at h
        cases h
      | ok outcome =>
        rw [Method.run_bind_of_ok hrun] at h
        cases h
        obtain ⟨hpayload, hsnapshots⟩ :=
          decideRequest_allows hrun hallow hasked
        refine ⟨hpayload, fun s hs => ?_⟩
        exact (hsnapshots s hs).imp_right fun heq => by rw [heq]

end Engine

-- =========== the grant

theorem orInput_orInput (update : Option ToolInput) (toolInput : ToolInput) :
    orInput update (orInput update toolInput) = orInput update toolInput := by
  cases update with
  | none => rfl
  | some entries =>
    cases entries with
    | nil => rfl
    | cons entry entries => rfl

variable {context : ToolContext} {decision : PermissionDecision}
  {definition : Tool} {hook : HookEffect} {toolInput : ToolInput}

/-- A permission that is granted without asking a host: the input that
runs, and what the rules were matched against. -/
theorem grant_unasked {engine : PermissionEngine} {runtime : RuntimeContext}
    (hback : EngineBacked context engine runtime) {input : ToolInput}
    {log : CallLog}
    (hhook : context.runtimeServices = none → hook.updatedInput = none)
    (hgo : hook.continueExecution = true) (h : (grant context definition hook
        (orInput decision.updatedInput input) decision).run {}
      = (.ok (.cleared toolInput), log))
    (hasked : log.permissions.asked = []) :
    toolInput = orInput
        (some (hook.updatedInput.getD (orInput decision.updatedInput input)))
        (orInput decision.updatedInput input)
      ∧ MatchedOn engine runtime definition
        (orInput decision.updatedInput input) log := by
  unfold grant at h
  cases hservices : context.runtimeServices with
  | some services =>
    rw [hservices] at h
    dsimp only at h
    have hauth := hback services hservices
    rw [hauth] at h
    dsimp only at h
    cases hrun : (engine.authorize definition
        (orInput decision.updatedInput input) decision (some hook)
        runtime).run {} with
    | mk r after =>
      cases r with
      | error message =>
        have hpart : (CallLog.permitted (engine.authorize definition
            (orInput decision.updatedInput input) decision (some hook)
            runtime)).run {} = (.error message, ⟨after, []⟩) := by
          show ((_ : Except String PermissionDecision × _).1.mapError
            id, _) = _
          rw [hrun]
          rfl
        rw [Method.run_bind_of_error hpart] at h
        cases h
      | ok decided =>
        have hpart : (CallLog.permitted (engine.authorize definition
            (orInput decision.updatedInput input) decision (some hook)
            runtime)).run {} = (.ok decided, ⟨after, []⟩) :=
          Method.run_within_of_ok hrun
        rw [Method.run_bind_of_ok hpart] at h
        unfold answer at h
        by_cases hallow : decided.behavior = .allow
        · rw [if_neg (not_not.2 hallow)] at h
          cases h
          obtain ⟨hpayload, hsnapshots⟩ :=
            authorize_allows hgo hrun hallow hasked
          rw [orInput_orInput] at hpayload
          refine ⟨by rw [hpayload], fun s hs => ?_⟩
          rcases hsnapshots s hs with hold | hnew
          · cases hold
          · exact hnew
        · rw [if_pos hallow] at h
          cases h
  | none =>
    rw [hservices] at h
    dsimp only at h
    have hempty : ∀ log', log' = ({} : CallLog) →
        MatchedOn engine runtime definition
          (orInput decision.updatedInput input) log' := by
      intro log' heq s hs
      rw [heq] at hs
      cases hs
    rw [hhook hservices]
    split at h
    · cases hhandler : context.permissionHandler with
      | none =>
        rw [hhandler] at h
        cases h
      | some handler =>
        -- the handler was asked
        rw [hhandler] at h
        dsimp only at h
        cases hanswer : handler definition
            (orInput decision.updatedInput input) decision with
        | error message =>
          rw [hanswer] at h
          cases h
        | ok decided =>
          rw [hanswer] at h
          have hlog : (⟨⟨[], [orInput decision.updatedInput input]⟩,
              []⟩ : CallLog) = log := congrArg Prod.snd h
          rw [← hlog] at hasked
          cases hasked
    · unfold answer at h
      split at h
      · cases h
      · cases h
        refine ⟨?_, hempty _ rfl⟩
        cases hin : orInput decision.updatedInput input with
        | nil => rfl
        | cons entry entries => rfl

theorem reached_input {engine : PermissionEngine} {runtime : RuntimeContext}
    (hback : EngineBacked context engine runtime) {raw : ToolInput}
    (h : ReachesTool context definition raw {} toolInput)
    (hasked : ((clearance context definition raw).run
      {}).2.permissions.asked = []) :
    ∃ validated hook decision,
      Checked context definition raw validated hook decision
        ∧ toolInput = orInput
          (some (hook.updatedInput.getD (orInput decision.updatedInput
            (hook.updatedInput.getD validated))))
          (orInput decision.updatedInput
            (hook.updatedInput.getD validated))
        ∧ MatchedOn engine runtime definition
          (orInput decision.updatedInput (hook.updatedInput.getD validated))
          ((clearance context definition raw).run {}).2 := by
  obtain ⟨hook, input, _, decision, hreach, hgrant⟩ := h
  have hrun : (clearance context definition raw).run {} = _ :=
    (Stops.permission hook input decision hreach).run_eq
  rw [hrun] at hasked ⊢
  cases hreach with
  | intro input hook decision hcheckReach hcheck =>
    cases hcheckReach with
    | intro validated hook hvalid hhook hgo =>
      refine ⟨validated, hook, decision, ⟨hvalid, hhook, hgo, hcheck⟩, ?_⟩
      refine grant_unasked hback (fun hnone => ?_) hgo
        (Prod.ext hgrant rfl) hasked
      unfold dispatchPreToolUse at hhook
      rw [hnone] at hhook
      cases hhook
      rfl

theorem updatesAgree_iff {validated : ToolInput} (h : toolInput = orInput
      (some (hook.updatedInput.getD (orInput decision.updatedInput
        (hook.updatedInput.getD validated))))
      (orInput decision.updatedInput (hook.updatedInput.getD validated))) :
    toolInput = intendedInput hook decision validated
      ↔ UpdatesAgree hook decision validated := by
  subst h
  unfold intendedInput UpdatesAgree
  cases hdec : decision.updatedInput with
  | none =>
    cases hhook : hook.updatedInput with
    | none =>
      cases validated with
      | nil => simp
      | cons entry entries => simp [orInput]
    | some update =>
      cases update with
      | nil => simp
      | cons entry entries => simp [orInput]
  | some update =>
    by_cases hupdate : update = []
    · subst hupdate
      cases hhook : hook.updatedInput with
      | none =>
        cases validated with
        | nil => simp
        | cons entry entries => simp [orInput]
      | some hookUpdate =>
        cases hookUpdate with
        | nil => simp
        | cons entry entries => simp [orInput]
    · cases hhook : hook.updatedInput with
      | none => simp [orInput_of_ne hupdate, hupdate]
      | some hookUpdate =>
        by_cases hempty : hookUpdate = []
        · subst hempty
          simp [orInput_of_ne hupdate]
        · simp [orInput_of_ne hempty, hupdate, hempty]

/-- Where the input that runs is the intended one, it is the one the rules
were matched on. -/
theorem matched_input {validated : ToolInput} (h : toolInput = orInput
      (some (hook.updatedInput.getD (orInput decision.updatedInput
        (hook.updatedInput.getD validated))))
      (orInput decision.updatedInput (hook.updatedInput.getD validated)))
    (hagree : UpdatesAgree hook decision validated) :
    toolInput
      = orInput decision.updatedInput
        (hook.updatedInput.getD validated) := by
  rw [(updatesAgree_iff h).2 hagree]
  unfold intendedInput
  cases hdec : decision.updatedInput with
  | none => rfl
  | some update =>
    by_cases hupdate : update = []
    · rw [hupdate] at hdec ⊢
      rw [orInput_empty, (hagree [] hdec).1 rfl]
      rfl
    · rw [orInput_of_ne hupdate]
      rfl

-- ============ the logs

theorem permissions_invokeTool (callId : String) (toolInput : ToolInput)
    (log : CallLog) :
    ((invokeTool context definition callId toolInput).run log).2.permissions
      = log.permissions := by
  have hrefl : ∀ l : CallLog, l.permissions = l.permissions := fun _ => rfl
  have htrans : ∀ a b c : CallLog, b.permissions = a.permissions →
      c.permissions = b.permissions → c.permissions = a.permissions :=
    fun _ _ _ hab hbc => hbc.trans hab
  have hkeeps : Method.Evolves
      (fun a b : CallLog => b.permissions = a.permissions)
      (invokeTool context definition callId toolInput) := by
    unfold invokeTool
    cases definition.body.execute with
    | none => exact Method.evolves_pure hrefl _
    | some execute =>
      refine Method.evolves_bind htrans (fun _ => rfl) fun _ => ?_
      refine Method.evolves_bind htrans (Method.evolves_lift hrefl _)
        fun _ => ?_
      refine Method.evolves_bind htrans (Method.evolves_lift hrefl _)
        fun _ => ?_
      split
      · exact Method.evolves_pure hrefl _
      · exact Method.evolves_pure hrefl _
  exact hkeeps log

theorem reaches_of_direct {callId : String} {raw : ToolInput}
    (h : (definition, toolInput) ∈
      ((executeToolCall context definition callId raw).run {}).2.executed) :
    ReachesTool context definition raw {} toolInput
      ∧ ((executeToolCall context definition callId raw).run
          {}).2.permissions
        = ((clearance context definition raw).run {}).2.permissions := by
  rw [executed_executeToolCall] at h
  obtain ⟨-, -, hclear⟩ := mem_executions.1 h
  refine ⟨reachesTool_iff.2 hclear, ?_⟩
  rw [run_executeToolCall, executeBody_eq_clearance,
    Method.run_bind_of_ok (Prod.ext hclear rfl)]
  exact permissions_invokeTool callId _ _

theorem reaches_of_resolved {envelope : ToolCallEnvelope} {raw : ToolInput}
    (h : (definition, toolInput) ∈
      ((observeToolCall context envelope raw).run {}).2.executed) :
    ReachesTool context definition raw {} toolInput
      ∧ ((observeToolCall context envelope raw).run {}).2.permissions
        = ((clearance context definition raw).run {}).2.permissions := by
  rcases resolveToolCall_cases context envelope raw with
    ⟨call, hresolve, hstatus, -⟩ | ⟨canonical, found, hname, hfound, hopen⟩
  · rw [run_turnedAway hresolve hstatus] at h
    cases h
  · obtain ⟨htool, -, hreach, semantics, hsched⟩ :=
      (mem_executed_observe hname hfound hopen).1 h
    dsimp only at htool hreach hsched
    subst htool
    refine ⟨hreach, ?_⟩
    rw [observeToolCall_eq context definition envelope canonical raw hname
      hfound hopen,
      Method.run_bind_of_ok (Prod.ext (reachesTool_iff.1 hreach) rfl)]
    obtain ⟨lane, hlane⟩ := run_scheduled context definition envelope
      canonical ((clearance context definition raw).run {}).2 hsched
    rw [hlane]
    exact permissions_invokeTool _ _ _

-- ========== the result

/-- A call that is allowed without asking a host runs on the intended
input, and is decided on it, exactly where the updates of the hook and the
check agree. -/
theorem decided_input_iff {context : ToolContext}
    {engine : PermissionEngine} {runtime : RuntimeContext}
    (hback : EngineBacked context engine runtime) {definition : Tool}
    {envelope : ToolCallEnvelope} {raw toolInput : ToolInput} {log : CallLog}
    (hroute : log
        = ((executeToolCall context definition envelope.toolUseId raw).run
          {}).2
      ∨ log = ((observeToolCall context envelope raw).run {}).2)
    (hexecuted : (definition, toolInput) ∈ log.executed)
    (hasked : log.permissions.asked = []) :
    ∃ validated hook decision,
      Checked context definition raw validated hook decision
        ∧ ((toolInput = intendedInput hook decision validated
            ∧ MatchedOn engine runtime definition toolInput log)
          ↔ UpdatesAgree hook decision validated) := by
  have hreach : ReachesTool context definition raw {} toolInput
      ∧ log.permissions
        = ((clearance context definition raw).run {}).2.permissions := by
    rcases hroute with rfl | rfl
    · exact reaches_of_direct hexecuted
    · exact reaches_of_resolved hexecuted
  obtain ⟨hreach, hlog⟩ := hreach
  rw [hlog] at hasked
  obtain ⟨validated, hook, decision, hchecked, hinput, hmatched⟩ :=
    reached_input hback hreach hasked
  refine ⟨validated, hook, decision, hchecked, ?_⟩
  refine ⟨fun h => (updatesAgree_iff hinput).1 h.1, fun hagree =>
    ⟨(updatesAgree_iff hinput).2 hagree, ?_⟩⟩
  rw [matched_input hinput hagree]
  unfold MatchedOn
  rw [hlog]
  exact hmatched

-- ========= two updates

/-- A tool that writes to a path its permission check has put in place. -/
def rewriter : Tool where
  name := "write"
  aliases := []
  origin := ⟨.user, none⟩
  body :=
    { validateInputSchema := .ok
      checkPermissions := some fun _ =>
        .ok { behavior := .allow
              updatedInput := some [(.str "path", .str "checked")] }
      execute := some fun _ => .ok (.value .none) }

def hookedServices (update : Option ToolInput) : RuntimeServices where
  preToolUse _ _ := .ok { updatedInput := update }
  postToolUse _ _ _ := .ok {}
  postToolUseFailure _ _ _ := .ok ()
  authorize definition toolInput decision hook :=
    ({} : PermissionEngine).authorize definition toolInput decision
      (some hook) ⟨"session-1", none, none, [], none, none, none, none⟩

def hookedContext (update : Option ToolInput) : ToolContext where
  toolRegistry := (Registries.ToolRegistry.empty.register rewriter).2
  runtimeServices := some (hookedServices update)

def writeCall : ToolCallEnvelope := ⟨"call-1", 0, "write", "message-1"⟩

theorem hookedContext_backed (update : Option ToolInput) :
    EngineBacked (hookedContext update) {}
      ⟨"session-1", none, none, [], none, none, none, none⟩ := by
  intro services h
  cases h
  rfl

theorem decided_input_unhooked :
    (rewriter, [(.str "path", .str "checked")]) ∈
        ((observeToolCall (hookedContext none) writeCall []).run
          {}).2.executed
      ∧ ∃ validated hook decision,
        Checked (hookedContext none) rewriter [] validated hook decision
          ∧ (([(.str "path", .str "checked")]
                = intendedInput hook decision validated
              ∧ MatchedOn {}
                ⟨"session-1", none, none, [], none, none, none, none⟩
                rewriter [(.str "path", .str "checked")]
                ((observeToolCall (hookedContext none) writeCall []).run
                  {}).2)
            ↔ UpdatesAgree hook decision validated) :=
  have hexecuted : (rewriter, [(.str "path", .str "checked")]) ∈
      ((observeToolCall (hookedContext none) writeCall []).run
        {}).2.executed := List.mem_singleton.2 rfl
  ⟨hexecuted, decided_input_iff (hookedContext_backed none)
    (.inr rfl) hexecuted rfl⟩

def hooked : ToolInput := [(.str "path", .str "hooked")]

/-- The update of a hook replaces that of the check, which the rules were
matched on: on both routes the tool runs on an input that no check saw. -/
theorem hook_update_runs :
    ∃ hook decision,
      Checked (hookedContext (some hooked)) rewriter [] [] hook decision
        ∧ (rewriter, hooked) ∈ ((executeToolCall (hookedContext (some hooked))
            rewriter "call-1" []).run {}).2.executed
        ∧ (rewriter, hooked) ∈ ((observeToolCall (hookedContext (some hooked))
            writeCall []).run {}).2.executed
        ∧ ((observeToolCall (hookedContext (some hooked)) writeCall []).run
            {}).2.permissions.asked = []
        ∧ hooked ≠ intendedInput hook decision [] :=
  ⟨{ updatedInput := some hooked },
    { behavior := .allow
      updatedInput := some [(.str "path", .str "checked")] },
    ⟨.intro [] [] rfl rfl, rfl, rfl, rfl⟩, List.mem_singleton.2 rfl,
    List.mem_singleton.2 rfl, rfl, by simp [intendedInput, hooked]⟩

end WeaveRuntime.Tools
