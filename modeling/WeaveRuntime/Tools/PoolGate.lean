/-
The gate in front of a tool: which calls it lets through to a tool that is
not in the pool.

A call names its tool by a string. What runs is what the registry finds
under the string; the gate asks something else, whether some member of the
pool goes by it, and it asks only where the pool is not empty. `Gated` is
what that comes to for the tool that is found: it is in the pool, or the
pool is not empty and no member goes by the name.

`pool_gate_iff` says that on both routes, through the scheduler and through
resolution, nothing outside of the pool is executed exactly when the found
tool is gated or the call stops before it. In a registry whose aliases
resolve the gate and the lookup agree, and only the empty pool lets
anything else through (`gated_of_resolves`).
-/
import WeaveRuntime.Registries.Naming
import WeaveRuntime.Tools.Routes

namespace WeaveRuntime.Tools

open Lib
open Registries

-- ========== statements

def OnlyFromPool (context : ToolContext) (log : CallLog) : Prop :=
  ∀ e ∈ log.executed, e.1 ∈ context.toolPool

/-- The tool found under the name is in the pool, or the gate turns the
name away. -/
def Gated (context : ToolContext) (name : String) (definition : Tool) :
    Prop :=
  definition ∈ context.toolPool
    ∨ (context.toolPool ≠ []
      ∧ ∀ member ∈ context.toolPool, member.matches name = false)

/-- Past the gate the call gets as far as the tool. -/
def RunsDirect (context : ToolContext) (definition : Tool)
    (raw : ToolInput) : Prop :=
  definition.body.execute.isSome = true
    ∧ ∃ toolInput, ReachesTool context definition raw {} toolInput

/-- Past the gate the call gets as far as its task, and to the tool. -/
def RunsResolved (context : ToolContext) (definition : Tool)
    (raw : ToolInput) : Prop :=
  definition.body.execute.isSome = true
    ∧ ∃ toolInput, ReachesTool context definition raw {} toolInput
      ∧ ∃ semantics, Schedulable context definition toolInput semantics

-- ============ the gate

variable {context : ToolContext} {definition : Tool}

theorem gateDenies_iff {name : String} :
    gateDenies context name = true
      ↔ context.toolPool ≠ []
        ∧ ∀ member ∈ context.toolPool, member.matches name = false := by
  unfold gateDenies toolAvailableInPool
  simp

theorem onlyFromPool_of_nil {log : CallLog} (h : log.executed = []) :
    OnlyFromPool context log := by
  intro e he
  rw [h] at he
  cases he

-- ========== two routes

/-- The scheduler's route. -/
theorem onlyFromPool_runSingle_iff (context : ToolContext)
    (callId name : String) (raw : ToolInput) :
    OnlyFromPool context ((runSingle context callId name raw).run {}).2
      ↔ ∀ definition, context.toolRegistry.get name = some definition →
        RunsDirect context definition raw →
        Gated context name definition := by
  unfold runSingle
  cases hget : context.toolRegistry.get name with
  | none =>
    refine iff_of_true (onlyFromPool_of_nil rfl) fun d hd => ?_
    cases hd
  | some definition =>
    dsimp only
    split
    · next hgate =>
      refine iff_of_true (onlyFromPool_of_nil rfl) fun d _ _ => ?_
      exact Or.inr (gateDenies_iff.1 hgate)
    · next hgate =>
      refine ⟨fun honly d hd hruns => ?_, fun hgated e he => ?_⟩
      · cases hd
        obtain ⟨hsome, toolInput, hreach⟩ := hruns
        refine Or.inl (honly (definition, toolInput) ?_)
        rw [executed_executeToolCall]
        exact mem_executions.2 ⟨rfl, hsome, reachesTool_iff.1 hreach⟩
      · rw [executed_executeToolCall] at he
        obtain ⟨htool, hsome, hclear⟩ := mem_executions.1 he
        rw [htool]
        rcases hgated definition rfl
          ⟨hsome, e.2, reachesTool_iff.2 hclear⟩ with hin | hout
        · exact hin
        · exact absurd (gateDenies_iff.2 hout) hgate

/-- What the resolved route executes, where the call finds its definition
and passes the gate. -/
theorem mem_executed_observe {envelope : ToolCallEnvelope}
    {canonicalToolName : String} {raw : ToolInput} {e : Tool × ToolInput}
    (hname : resolveCanonicalToolName context envelope.rawToolName
      = some canonicalToolName)
    (hfound : context.toolRegistry.get canonicalToolName = some definition)
    (hgate : gateDenies context envelope.rawToolName = false) :
    e ∈ ((observeToolCall context envelope raw).run {}).2.executed
      ↔ e.1 = definition ∧ definition.body.execute.isSome = true
        ∧ ReachesTool context definition raw {} e.2
        ∧ ∃ semantics, Schedulable context definition e.2 semantics := by
  have hnone := clearance_unexecuted context definition raw {}
  rw [observeToolCall_eq context definition envelope canonicalToolName raw
    hname hfound hgate, reachesTool_iff]
  cases hrun : (clearance context definition raw).run {} with
  | mk r log =>
    have hempty : log.executed = [] := by
      rw [hrun] at hnone
      exact hnone
    cases r with
    | error message =>
      rw [Method.run_bind_of_error hrun]
      simp [hempty]
    | ok clear =>
      rw [Method.run_bind_of_ok hrun]
      by_cases hclear : ∃ toolInput, clear = .cleared toolInput
      · obtain ⟨toolInput, rfl⟩ := hclear
        by_cases hsched : ∃ semantics,
            Schedulable context definition toolInput semantics
        · obtain ⟨semantics, hsem⟩ := hsched
          obtain ⟨lane, hlane⟩ := run_scheduled context definition
            envelope canonicalToolName log hsem
          rw [hlane]
          dsimp only
          rw [executed_invokeTool, hempty]
          obtain ⟨tool, input⟩ := e
          cases definition.body.execute with
          | none => simp
          | some execute =>
            simp only [Option.isSome_some, if_true, List.nil_append,
              List.mem_singleton, Prod.mk.injEq, Except.ok.injEq,
              Clearance.cleared.injEq, true_and]
            refine ⟨fun ⟨htool, hinput⟩ => ?_,
              fun ⟨htool, hinput, _⟩ => ⟨htool, hinput.symm⟩⟩
            exact ⟨htool, hinput.symm, semantics, hinput ▸ hsem⟩
        · obtain ⟨message, hmessage⟩ := run_unschedulable context
            definition envelope canonicalToolName log
            fun semantics hsem => hsched ⟨semantics, hsem⟩
          rw [hmessage]
          refine iff_of_false (by simp [hempty]) ?_
          intro ⟨_, _, hcleared, hsome⟩
          cases hcleared
          exact hsched hsome
      · obtain ⟨o, ho, -⟩ := run_stopped context definition envelope
          canonicalToolName log
          fun toolInput heq => hclear ⟨toolInput, heq⟩
        rw [ho]
        refine iff_of_false (by simp [hempty]) ?_
        intro ⟨_, _, hcleared, _⟩
        exact hclear ⟨_, Except.ok.inj hcleared⟩

/-- Whatever the resolved route executes is the one thing that the direct
route executes. -/
theorem resolved_executes_as_direct {envelope : ToolCallEnvelope}
    {canonicalToolName : String} {raw : ToolInput} {e : Tool × ToolInput}
    (hname : resolveCanonicalToolName context envelope.rawToolName
      = some canonicalToolName)
    (hfound : context.toolRegistry.get canonicalToolName = some definition)
    (hgate : gateDenies context envelope.rawToolName = false)
    (h : e ∈ ((observeToolCall context envelope raw).run {}).2.executed) :
    ((executeToolCall context definition envelope.toolUseId raw).run
      {}).2.executed = [e] := by
  obtain ⟨tool, toolInput⟩ := e
  obtain ⟨rfl, hexecute, hreaches, -⟩ :=
    (mem_executed_observe hname hfound hgate).1 h
  rw [reachesTool_iff] at hreaches
  rw [executed_executeToolCall, hreaches]
  exact if_pos hexecute

/-- A call is turned away before its definition is used, or it finds one
and passes the gate. -/
theorem resolveToolCall_cases (context : ToolContext)
    (envelope : ToolCallEnvelope) (raw : ToolInput) :
    (∃ call, resolveToolCall context envelope raw = pure call
      ∧ call.resolutionStatus ≠ .executable
      ∧ ∀ canonicalToolName definition,
        resolveCanonicalToolName context envelope.rawToolName
            = some canonicalToolName →
        context.toolRegistry.get canonicalToolName = some definition →
        gateDenies context envelope.rawToolName = true)
    ∨ ∃ canonicalToolName definition,
      resolveCanonicalToolName context envelope.rawToolName
          = some canonicalToolName
        ∧ context.toolRegistry.get canonicalToolName = some definition
        ∧ gateDenies context envelope.rawToolName = false := by
  unfold resolveToolCall
  cases hname : resolveCanonicalToolName context envelope.rawToolName with
  | none =>
    refine Or.inl ⟨_, rfl, by simp [unknownCall], fun c d hc _ => ?_⟩
    cases hc
  | some canonical =>
    dsimp only
    cases hfound : context.toolRegistry.get canonical with
    | none =>
      refine Or.inl ⟨_, rfl, by simp [unknownCall], fun c d hc hd => ?_⟩
      cases hc
      rw [hfound] at hd
      cases hd
    | some definition =>
      dsimp only
      split
      · next hgate =>
        exact Or.inl ⟨_, rfl, by simp [deniedCall, resolvedCall],
          fun _ _ _ _ => hgate⟩
      · next hgate =>
        exact Or.inr ⟨canonical, definition, rfl, hfound,
          Bool.not_eq_true _ ▸ hgate⟩

theorem run_turnedAway {envelope : ToolCallEnvelope} {raw : ToolInput}
    {call : PreparedCall} {log : CallLog}
    (hresolve : resolveToolCall context envelope raw = pure call)
    (hstatus : call.resolutionStatus ≠ .executable) :
    (observeToolCall context envelope raw).run log
      = (.ok (some (syntheticOutcome
          { call.toResolvedToolCall with schedulerLane := none } 0)),
        log) := by
  unfold observeToolCall
  rw [hresolve, pure_bind]
  unfold scheduleCall deriveLane
  rw [if_pos hstatus]
  dsimp only
  rw [if_pos hstatus]
  rfl

/-- The definition a call of this name is resolved to: the one the
registry finds, or a member of the pool. -/
theorem resolved_definition (h : Aliased context.toolRegistry)
    (hpool : ∀ member ∈ context.toolPool,
      member ∈ context.toolRegistry.definitions)
    {name canonicalToolName : String}
    (hname : resolveCanonicalToolName context name = some canonicalToolName)
    (hfound : context.toolRegistry.get canonicalToolName = some definition) :
    context.toolRegistry.get name = some definition
      ∨ (context.toolRegistry.get name = none
        ∧ definition ∈ context.toolPool) := by
  unfold resolveCanonicalToolName at hname
  cases hget : context.toolRegistry.get name with
  | some found =>
    rw [hget] at hname
    cases hname
    have hself := get_of_entry (h.get?_name (h.get_matches hget).1)
    rw [hself] at hfound
    exact Or.inl hfound
  | none =>
    refine Or.inr ⟨rfl, ?_⟩
    rw [hget] at hname
    -- the catalog of the pool knows the name
    have hmember : ∃ member ∈ context.toolPool,
        member.name = canonicalToolName := by
      unfold resolveAlias at hname
      dsimp only at hname
      split at hname
      · next hany =>
        cases hname
        obtain ⟨member, hmem, heq⟩ := List.any_eq_true.1 hany
        exact ⟨member, hmem, of_decide_eq_true heq⟩
      · obtain ⟨member, hfind, heq⟩ := Option.map_eq_some_iff.1 hname
        exact ⟨member, List.mem_of_find?_eq_some hfind, heq⟩
    obtain ⟨member, hmem, heq⟩ := hmember
    have hself := get_of_entry (h.get?_name (hpool member hmem))
    rw [heq, hfound] at hself
    rw [Option.some.inj hself]
    exact hmem

/-- The resolved route. -/
theorem onlyFromPool_observe_iff (h : Aliased context.toolRegistry)
    (hpool : ∀ member ∈ context.toolPool,
      member ∈ context.toolRegistry.definitions) (envelope : ToolCallEnvelope)
    (raw : ToolInput) :
    OnlyFromPool context ((observeToolCall context envelope raw).run {}).2
      ↔ ∀ definition,
        context.toolRegistry.get envelope.rawToolName = some definition →
        RunsResolved context definition raw →
        Gated context envelope.rawToolName definition := by
  -- a tool the registry finds under the name is what the call resolves to
  have hdirect : ∀ d,
      context.toolRegistry.get envelope.rawToolName = some d →
      resolveCanonicalToolName context envelope.rawToolName = some d.name
        ∧ context.toolRegistry.get d.name = some d := by
    intro d hd
    refine ⟨?_, get_of_entry (h.get?_name (h.get_matches hd).1)⟩
    unfold resolveCanonicalToolName
    rw [hd]
  rcases resolveToolCall_cases context envelope raw with
    ⟨call, hresolve, hstatus, hgate⟩ | ⟨canonical, definition, hrest⟩
  · refine iff_of_true ?_ fun d hd _ => ?_
    · rw [run_turnedAway hresolve hstatus]
      exact onlyFromPool_of_nil rfl
    · -- the registry finds the tool, so it was the gate
      obtain ⟨hname, hfound⟩ := hdirect d hd
      exact Or.inr (gateDenies_iff.1 (hgate d.name d hname hfound))
  · obtain ⟨hname, hfound, hopen⟩ := hrest
    refine ⟨fun honly d hd hruns => ?_, fun hgated e he => ?_⟩
    · obtain ⟨hname', hfound'⟩ := hdirect d hd
      rw [hname'] at hname
      cases hname
      rw [hfound'] at hfound
      cases hfound
      obtain ⟨hsome, toolInput, hreach, hsched⟩ := hruns
      refine Or.inl (honly (definition, toolInput) ?_)
      exact (mem_executed_observe hname' hfound' hopen).2
        ⟨rfl, hsome, hreach, hsched⟩
    · obtain ⟨htool, hsome, hreach, hsched⟩ :=
        (mem_executed_observe hname hfound hopen).1 he
      rw [htool]
      rcases resolved_definition h hpool hname hfound with hget | ⟨-, hin⟩
      · rcases hgated definition hget ⟨hsome, e.2, hreach, hsched⟩ with
          hin | hout
        · exact hin
        · rw [gateDenies_iff.2 hout] at hopen
          cases hopen
      · exact hin

/-- On both routes nothing outside of the pool is executed exactly when
the tool found under the name is gated or the call stops before it. -/
theorem pool_gate_iff {calls : List (RegistryCall ToolCallables)}
    {context : ToolContext}
    (hreach : (registrySystem ToolCallables).Visits
      Registries.ToolRegistry.empty calls context.toolRegistry)
    (hpool : ∀ member ∈ context.toolPool,
      member ∈ context.toolRegistry.definitions)
    (envelope : ToolCallEnvelope) (raw : ToolInput) :
    (OnlyFromPool context
        ((runSingle context envelope.toolUseId envelope.rawToolName
          raw).run {}).2
      ↔ ∀ definition,
        context.toolRegistry.get envelope.rawToolName = some definition →
        RunsDirect context definition raw →
        Gated context envelope.rawToolName definition)
    ∧ (OnlyFromPool context
        ((observeToolCall context envelope raw).run {}).2
      ↔ ∀ definition,
        context.toolRegistry.get envelope.rawToolName = some definition →
        RunsResolved context definition raw →
        Gated context envelope.rawToolName definition) :=
  ⟨onlyFromPool_runSingle_iff context _ _ raw,
    onlyFromPool_observe_iff (aliased_visits hreach) hpool envelope raw⟩

-- ====== the empty pool

/-- A tool that accepts every input and returns nothing. -/
def echo : Tool where
  name := "echo"
  aliases := []
  origin := ⟨.user, none⟩
  body := { validateInputSchema := .ok, execute := some fun _ => .ok
              (.value .none) }

/-- The registry that has it, with a pool that was narrowed to nothing. -/
def unpooled : ToolContext where
  toolRegistry := (Registries.ToolRegistry.empty.register echo).2

def echoCall : ToolCallEnvelope := ⟨"call-1", 0, "echo", "message-1"⟩

theorem unpooled_visits :
    (registrySystem ToolCallables).Visits Registries.ToolRegistry.empty
      [.register echo] unpooled.toolRegistry :=
  System.Visits.finish rfl

theorem pool_gate_unpooled :
    (registrySystem ToolCallables).Visits Registries.ToolRegistry.empty
        [.register echo] unpooled.toolRegistry
      ∧ (OnlyFromPool unpooled
          ((observeToolCall unpooled echoCall []).run {}).2
        ↔ ∀ definition, unpooled.toolRegistry.get "echo" = some definition →
          RunsResolved unpooled definition [] →
          Gated unpooled "echo" definition) :=
  ⟨unpooled_visits,
    (pool_gate_iff unpooled_visits (fun _ h => absurd h (by simp [unpooled]))
      echoCall []).2⟩

theorem resolved_executes_echo :
    ((executeToolCall unpooled echo "call-1" []).run {}).2.executed
      = [(echo, [])] := by
  have hexecuted : (echo, []) ∈ ((observeToolCall unpooled echoCall
      []).run {}).2.executed := List.mem_singleton.2 rfl
  exact resolved_executes_as_direct (by rfl) (by rfl) (by rfl) hexecuted

/-- With an empty pool the tool runs, on both routes. -/
theorem empty_pool_executes :
    unpooled.toolPool = []
      ∧ ¬ OnlyFromPool unpooled
        ((runSingle unpooled "call-1" "echo" []).run {}).2
      ∧ ¬ OnlyFromPool unpooled
        ((observeToolCall unpooled echoCall []).run {}).2 := by
  have hdirect : ((runSingle unpooled "call-1" "echo" []).run {}).2.executed
      = [(echo, [])] := rfl
  have hresolved : ((observeToolCall unpooled echoCall []).run
      {}).2.executed = [(echo, [])] := rfl
  refine ⟨rfl, fun h => ?_, fun h => ?_⟩
  · have hin := h (echo, []) (by rw [hdirect]; exact List.mem_singleton.2 rfl)
    simp [unpooled] at hin
  · have hin := h (echo, [])
      (by rw [hresolved]; exact List.mem_singleton.2 rfl)
    simp [unpooled] at hin

end WeaveRuntime.Tools
