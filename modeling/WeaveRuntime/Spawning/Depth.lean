/-
The depth of a delegation is bounded (`delegation_bounded`).

# The invariant

A child is one deeper than its parent because of what the parent's stage
carries (`Stage.Carries`): the metadata that a nested call starts from has
the depth of the execution it is made from. `buildRuntimeContext` writes it
there for one that runs. For one whose prompt is a route the metadata is
the invocation's own, and there the two ways into the runtime differ:
`invoke` routes the invocation that has been given its depth, and
`dispatch_prepared` the one that came in. So the runs of which the result
is told are those whose prepared children take no route (`Direct`).
-/
import WeaveRuntime.Spawning.Model

namespace WeaveRuntime.Spawning

open Lib
open Lib.Method
open Python

variable {services : Services} {ids : FreshIds} {s t : Tree}

def Services.maxDepth (services : Services) : Nat :=
  (resolveDelegationPolicy services.metadata).maxDepth

-- =========== the depth

theorem coerceNonNegativeInt_nat (n default : Nat) :
    coerceNonNegativeInt (.int n) default = n := by
  have hint : coerceInt (.int n) = some (n : Int) := by
    show parseInt (pyStrip (pyStr (.int n))) = _
    rw [pyStrip_pyStr_nat, parseInt_pyStr_nat]
  unfold coerceNonNegativeInt
  rw [hint]
  rfl

theorem depth_of_get? {metadata : Metadata} {n : Nat}
    (h : metadata.get? "delegation_depth" = some (.int n)) :
    delegationDepthFromMetadata metadata = n := by
  unfold delegationDepthFromMetadata
  rw [h]
  exact coerceNonNegativeInt_nat n 0

@[simp] theorem depth_insert (metadata : Metadata) (n : Nat) :
    delegationDepthFromMetadata (metadata.insert "delegation_depth" (.int n))
      = n :=
  depth_of_get? (Dict.get?_insert_self ..)

theorem depth_spec_withDepth (ids : FreshIds) (invocation : AgentInvocation)
    (n : Nat) (agent : AgentDefinition) :
    (buildExecutionSpec ids (invocation.withDepth n) agent).delegationDepth
      = n := depth_insert _ _

theorem depth_insert_of_ne (metadata : Metadata) {key : String}
    (value : PyVal) (hdepth : "delegation_depth" ≠ key)
    (hchild : "child_delegation_depth" ≠ key) :
    delegationDepthFromMetadata (metadata.insert key value)
      = delegationDepthFromMetadata metadata := by
  unfold delegationDepthFromMetadata
  rw [Dict.get?_insert_of_ne _ _ hdepth, Dict.get?_insert_of_ne _ _ hchild]

theorem get?_updated {base : Metadata} {update : List (String × PyVal)}
    (hnodup : (update.map Prod.fst).Nodup) {key : String} {value : PyVal}
    (h : (key, value) ∈ update) :
    (updated base update).get? key = some value := by
  unfold updated
  rw [Dict.get?_foldl_insert hnodup]
  exact Or.inl ⟨(key, value), h, rfl, rfl⟩

variable {invocation : AgentInvocation} {parent : Option Nat}
  {spec : AgentExecutionSpec}

theorem get?_runtimeContext {settings : RunSettings} {key : String}
    {value : PyVal} (h : (key, value) ∈ runtimeContextEntries spec settings) :
    (buildRuntimeContext spec settings).get? key = some value := by
  have hnodup : ((runtimeContextEntries spec settings).map
      Prod.fst).Nodup := by
    have hkeys : ["agent_name", "background", "run_id", "parent_run_id",
        "session_id", "turn_id", "parent_turn_id", "spawn_mode",
        "query_source", "delegation_depth", "requested_model_route",
        "requested_model", "requested_effort", "resolved_model_route",
        "provider_name", "resolved_capabilities",
        "provider_context_window_profiles", "route_context_window_policy",
        "invocation_mode", "requested_permission_mode",
        "requested_isolation", "max_turns", "permission_context",
        "execution_policy_state", "isolation"].Nodup := by decide
    exact hkeys
  exact get?_updated hnodup h

theorem depth_runtimeContext (spec : AgentExecutionSpec)
    (settings : RunSettings) :
    delegationDepthFromMetadata (buildRuntimeContext spec settings)
      = spec.delegationDepth :=
  depth_of_get? (get?_runtimeContext (by simp [runtimeContextEntries]))

theorem runId_runtimeContext (spec : AgentExecutionSpec)
    (settings : RunSettings) :
    textAt (buildRuntimeContext spec settings) "run_id"
      = some spec.runId.text := by
  have hget : (buildRuntimeContext spec settings).get? "run_id"
      = some (.str spec.runId.text) :=
    get?_runtimeContext (by simp [runtimeContextEntries])
  unfold textAt
  rw [hget]
  show coerceOptionalString (.str spec.runId.text) = _
  rw [coerceOptionalString_str, stripOrNone_of_stripped spec.runId.stripped]

theorem requestsChild_fork (ids : FreshIds) (skill : SkillDefinition)
    (call : SkillCall) (prompt : String) (permission state trace : PyVal) :
    (forkInvocation ids skill call prompt permission state
      trace).requestsChildExecution = true := by
  unfold AgentInvocation.requestsChildExecution
  simp [forkInvocation]

theorem depth_fork (ids : FreshIds) (skill : SkillDefinition)
    (call : SkillCall) (prompt : String) (permission state trace : PyVal) :
    delegationDepthFromMetadata (forkInvocation ids skill call prompt
        permission state trace).metadata
      = delegationDepthFromMetadata call.runtimeMetadata := by
  have hnodup : ["permission_context", "execution_policy_state",
      "delegation_depth", "skill_hooks", "skill_hook_owner",
      "skill_policy_trace"].Nodup := by decide
  exact depth_of_get? (get?_updated (by exact hnodup) (by simp))

theorem requestsChild_of_context (invocation : AgentInvocation)
    {metadata : Metadata} (h : (textAt metadata "run_id").isSome = true) :
    { invocation with metadata := metadata }.requestsChildExecution
      = true := by
  unfold AgentInvocation.requestsChildExecution
  simp [h]

-- ========== the policy

theorem enforce_refuses {execution : Metadata}
    (h : services.maxDepth ≤ delegationDepthFromMetadata execution)
    (label source mode : Option String) :
    enforceChildDelegationAllowed services.metadata execution label source
        mode
      = .error (.delegation (delegationDepthFromMetadata execution)
        (delegationDepthFromMetadata execution + 1) services.maxDepth label
        source mode) := by
  unfold enforceChildDelegationAllowed
  exact if_pos h

theorem enforce_allows {execution : Metadata}
    (h : delegationDepthFromMetadata execution < services.maxDepth)
    (label source mode : Option String) :
    enforceChildDelegationAllowed services.metadata execution label source
        mode
      = .ok (delegationDepthFromMetadata execution + 1) := by
  unfold enforceChildDelegationAllowed
  exact if_neg (Nat.not_le.2 h)

/-- What comes of an invocation: it is no child's and stays as it is, or it
is refused, or its metadata gets the depth of the child. -/
theorem withChildDelegationDepth_cases (services : Services)
    (invocation : AgentInvocation) :
    (invocation.requestsChildExecution = false
      ∧ services.withChildDelegationDepth invocation = .ok invocation)
    ∨ (invocation.requestsChildExecution = true
      ∧ services.maxDepth ≤ delegationDepthFromMetadata invocation.metadata
      ∧ ∃ label source mode, services.withChildDelegationDepth invocation
        = .error (.delegation
          (delegationDepthFromMetadata invocation.metadata)
          (delegationDepthFromMetadata invocation.metadata + 1)
          services.maxDepth label source mode))
    ∨ (invocation.requestsChildExecution = true
      ∧ delegationDepthFromMetadata invocation.metadata < services.maxDepth
      ∧ services.withChildDelegationDepth invocation
        = .ok (invocation.withDepth
          (delegationDepthFromMetadata invocation.metadata + 1))) := by
  unfold Services.withChildDelegationDepth
  by_cases hchild : invocation.requestsChildExecution = true
  · rw [if_pos hchild]
    rcases Nat.lt_or_ge (delegationDepthFromMetadata invocation.metadata)
      services.maxDepth with hlt | hge
    · refine Or.inr (Or.inr ⟨hchild, hlt, ?_⟩)
      rw [enforce_allows hlt]
      rfl
    · refine Or.inr (Or.inl ⟨hchild, hge, some invocation.agentName,
        invocation.querySource, invocation.spawnMode.map SpawnMode.value, ?_⟩)
      rw [enforce_refuses hge]
      rfl
  · rw [if_neg hchild]
    exact Or.inl ⟨Bool.not_eq_true _ ▸ hchild, rfl⟩

-- ===== what is carried

/-- What the nested calls of a stage start from has the depth. -/
def Stage.Carries (stage : Stage) (depth : Nat) : Prop :=
  match stage with
  | .running runtimeContext =>
    delegationDepthFromMetadata runtimeContext = depth
      ∧ (textAt runtimeContext "run_id").isSome = true
  | .routed (.agent invocation) =>
    delegationDepthFromMetadata invocation.metadata = depth
      ∧ invocation.requestsChildExecution = true
  | .routed (.skill call) =>
    delegationDepthFromMetadata call.runtimeMetadata = depth
  | .dispatched => True
  | .ended => True

/-- The prompt is a route to another agent or skill. -/
def CompatRoute.nested : CompatRoute → Bool
  | .skill _ => true
  | .agent _ _ => true
  | _ => false

theorem carries_of_tryCompatRoute {call : RoutedCall}
    (h : tryCompatRoute invocation spec = .ok (some (some call))) :
    (compatRoute invocation.prompt).nested = true
      ∧ (Stage.routed call).Carries
        (delegationDepthFromMetadata invocation.metadata) := by
  unfold tryCompatRoute at h
  split at h
  · cases h
  · cases h
  · cases h
  · next name hroute =>
    cases h
    rw [hroute]
    exact ⟨rfl, rfl⟩
  · next name prompt hroute =>
    cases h
    rw [hroute]
    refine ⟨rfl, ?_, ?_⟩
    · exact depth_insert_of_ne _ _ (by decide) (by decide)
    · rfl

/-- What a dispatch comes to: nothing, or one execution more. -/
theorem dispatch_cases (parent : Option Nat) (invocation : AgentInvocation)
    (agent : AgentDefinition) (spec : AgentExecutionSpec) (s : Tree) :
    (∃ e, (dispatch parent invocation agent spec).run s = (.error e, s))
    ∨ ∃ stage, (dispatch parent invocation agent spec).run s
        = (.ok (), ⟨s.executions ++ [⟨parent, spec, stage⟩]⟩)
      ∧ ((agent.name = "main-router"
          ∧ (compatRoute invocation.prompt).nested = true
        → delegationDepthFromMetadata invocation.metadata
          = spec.delegationDepth) → stage.Carries spec.delegationDepth) := by
  unfold dispatch
  by_cases hrouter : agent.name = "main-router"
  · rw [if_pos hrouter]
    cases hroute : tryCompatRoute invocation spec with
    | error e => exact Or.inl ⟨e, rfl⟩
    | ok route =>
      match route with
      | none => exact Or.inr ⟨.dispatched, rfl, fun _ => trivial⟩
      | some none => exact Or.inr ⟨.ended, rfl, fun _ => trivial⟩
      | some (some call) =>
        refine Or.inr ⟨.routed call, rfl, fun h => ?_⟩
        obtain ⟨hnested, hcarries⟩ := carries_of_tryCompatRoute hroute
        rw [← h ⟨hrouter, hnested⟩]
        exact hcarries
  · rw [if_neg hrouter]
    exact Or.inr ⟨.dispatched, rfl, fun _ => trivial⟩

/-- A call has started nothing, or an execution of this parent whose stage
carries its depth; a child's is one more than `depth`, within the bound. -/
def Starts (services : Services) (parent : Option Nat) (child : Bool)
    (depth : Nat) (s t : Tree) : Prop :=
  t = s ∨ ∃ spec stage, t = ⟨s.executions ++ [⟨parent, spec, stage⟩]⟩
    ∧ stage.Carries spec.delegationDepth
    ∧ (child = true → spec.delegationDepth = depth + 1
      ∧ spec.delegationDepth ≤ services.maxDepth)

theorem starts_dispatch {child : Bool} {depth : Nat} {agent : AgentDefinition}
    (hcarries : agent.name = "main-router"
        ∧ (compatRoute invocation.prompt).nested = true
      → delegationDepthFromMetadata invocation.metadata
        = spec.delegationDepth)
    (hdepth : child = true → spec.delegationDepth = depth + 1
      ∧ spec.delegationDepth ≤ services.maxDepth) :
    Starts services parent child depth s
      ((dispatch parent invocation agent spec).run s).2 := by
  rcases dispatch_cases parent invocation agent spec s with ⟨e, he⟩ | hok
  · rw [he]
    exact Or.inl rfl
  · obtain ⟨stage, hrun, hstage⟩ := hok
    rw [hrun]
    exact Or.inr ⟨spec, stage, rfl, hstage hcarries, hdepth⟩

-- =========== the calls

theorem starts_invoke (ids : FreshIds) (parent : Option Nat)
    (invocation : AgentInvocation) (s : Tree) :
    Starts services parent invocation.requestsChildExecution
      (delegationDepthFromMetadata invocation.metadata) s
      ((invoke services ids parent invocation).run s).2 := by
  unfold invoke
  cases hagent : services.resolveAgent invocation.agentName with
  | error e => exact Or.inl rfl
  | ok agent =>
    rw [run_lift_ok_bind]
    rcases withChildDelegationDepth_cases services invocation with
      ⟨hchild, hinv⟩ | ⟨hchild, -, label, source, mode, hinv⟩
      | ⟨hchild, hlt, hinv⟩
    · rw [hinv, run_lift_ok_bind]
      refine starts_dispatch (fun _ => rfl) fun h => ?_
      rw [hchild] at h
      cases h
    · rw [hinv, run_lift_error_bind]
      exact Or.inl rfl
    · rw [hinv, run_lift_ok_bind]
      refine starts_dispatch (fun _ => rfl) fun _ => ?_
      rw [depth_spec_withDepth]
      exact ⟨rfl, hlt⟩

def Services.takesRoute (services : Services)
    (invocation : AgentInvocation) : Bool :=
  match services.agentRegistry.get? invocation.agentName with
  | some agent => agent.name == "main-router"
      && (compatRoute invocation.prompt).nested
  | none => false

theorem starts_invokePrepared (ids : FreshIds) (parent : Option Nat)
    (invocation : AgentInvocation) (s : Tree)
    (hroute : invocation.requestsChildExecution = true →
      services.takesRoute invocation = false) :
    Starts services parent invocation.requestsChildExecution
      (delegationDepthFromMetadata invocation.metadata) s
      ((invokePrepared services ids parent invocation).run s).2 := by
  unfold invokePrepared prepareExecution
  cases hagent : services.resolveAgent invocation.agentName with
  | error e => exact Or.inl rfl
  | ok agent =>
    rw [ok_bind]
    rcases withChildDelegationDepth_cases services invocation with
      ⟨hchild, hinv⟩ | ⟨hchild, -, label, source, mode, hinv⟩
      | ⟨hchild, hlt, hinv⟩
    · rw [hinv]
      refine starts_dispatch (fun _ => rfl) fun h => ?_
      rw [hchild] at h
      cases h
    · rw [hinv]
      exact Or.inl rfl
    · rw [hinv]
      refine starts_dispatch (fun h => ?_) fun _ => ?_
      · -- the invocation that came in is not routed
        exfalso
        have hno := hroute hchild
        have hget : services.agentRegistry.get? invocation.agentName
            = some agent := orRaise_eq_ok.1 hagent
        unfold Services.takesRoute at hno
        rw [hget] at hno
        have hrouter : agent.name = "main-router" := h.1
        simp [hrouter, h.2] at hno
      · have hspec := depth_spec_withDepth ids invocation
          (delegationDepthFromMetadata invocation.metadata + 1) agent
        exact ⟨hspec, Nat.le_trans (Nat.le_of_eq hspec) hlt⟩

theorem starts_execute (ids : FreshIds) (parent : Option Nat)
    (call : SkillCall) (preparation : SkillPreparation) (s : Tree) :
    Starts services parent true
      (delegationDepthFromMetadata call.runtimeMetadata) s
      ((execute services ids parent call preparation).run s).2 := by
  unfold execute
  cases hskill : services.skillRegistry.get? call.skillName with
  | none => exact Or.inl rfl
  | some skill =>
    cases preparation with
    | refused e => exact Or.inl rfl
    | expanded prompt permission state trace =>
      rw [orRaise_some, run_lift_ok_bind]
      dsimp only
      by_cases hforks : skill.forks = true
      · rw [if_pos hforks]
        have hstarts : Starts services parent _ _ s _ :=
          starts_invoke ids parent
            (forkInvocation ids skill call prompt permission state trace)
            s
        rw [requestsChild_fork, depth_fork] at hstarts
        exact hstarts
      · rw [if_neg hforks]
        exact Or.inl rfl

-- ============ the tree

/-- Each child comes after its parent, one deeper and within the bound. -/
def Bounded (services : Services) (s : Tree) : Prop :=
  ∀ (k : Nat) (e : Execution), s.executions[k]? = some e →
    ∀ i : Nat, e.parent = some i → i < k
      ∧ ∃ p : Execution, s.executions[i]? = some p
      ∧ e.spec.delegationDepth = p.spec.delegationDepth + 1
      ∧ e.spec.delegationDepth ≤ services.maxDepth

/-- The invariant: the tree is bounded, and each stage carries the depth of
its execution. -/
structure Sound (services : Services) (s : Tree) : Prop where
  bounded : Bounded services s
  carries : ∀ e ∈ s.executions, e.stage.Carries e.spec.delegationDepth

theorem Sound.empty : Sound services ⟨[]⟩ := by
  refine ⟨fun k e he => ?_, fun e he => ?_⟩
  · rw [List.getElem?_nil] at he
    cases he
  · cases he

theorem Sound.append (h : Sound services s) {e : Execution}
    (hcarries : e.stage.Carries e.spec.delegationDepth)
    (hparent : ∀ i : Nat, e.parent = some i →
      ∃ p : Execution, s.executions[i]? = some p
      ∧ e.spec.delegationDepth = p.spec.delegationDepth + 1
      ∧ e.spec.delegationDepth ≤ services.maxDepth) :
    Sound services ⟨s.executions ++ [e]⟩ := by
  have hkeep : ∀ (i : Nat) (p : Execution), s.executions[i]? = some p →
      (s.executions ++ [e])[i]? = some p := by
    intro i p hp
    rw [List.getElem?_append_left (List.getElem?_eq_some_iff.1 hp).1]
    exact hp
  refine ⟨fun k e' he' i hi => ?_, fun e' he' => ?_⟩
  · rcases Nat.lt_or_ge k s.executions.length with hlt | hge
    · dsimp only at he'
      rw [List.getElem?_append_left hlt] at he'
      obtain ⟨hik, p, hp, hdepth⟩ := h.bounded k e' he' i hi
      exact ⟨hik, p, hkeep i p hp, hdepth⟩
    · dsimp only at he'
      rw [List.getElem?_append_right hge] at he'
      have hnew := List.mem_singleton.1 (List.mem_of_getElem? he')
      subst hnew
      obtain ⟨p, hp, hdepth⟩ := hparent i hi
      have hlt := (List.getElem?_eq_some_iff.1 hp).1
      exact ⟨Nat.lt_of_lt_of_le hlt hge, p, hkeep i p hp, hdepth⟩
  · rcases List.mem_append.1 he' with he' | he'
    · exact h.carries e' he'
    · rw [List.mem_singleton.1 he']
      exact hcarries

theorem getElem?_place (s : Tree) (place k : Nat) (stage : Stage) :
    (s.place place stage).executions[k]?
      = (s.executions[k]?).map fun e =>
        if place = k then { e with stage := stage } else e := by
  show (s.executions.modify place _)[k]? = _
  rw [List.getElem?_modify]
  rfl

theorem Sound.place (h : Sound services s) {place : Nat} {stage : Stage}
    (hcarries : ∀ e, s.executions[place]? = some e →
      stage.Carries e.spec.delegationDepth) :
    Sound services (s.place place stage) := by
  have hback : ∀ (k : Nat) (e : Execution),
      (s.place place stage).executions[k]? = some e →
      ∃ e₀ : Execution, s.executions[k]? = some e₀
        ∧ e₀.parent = e.parent ∧ e₀.spec = e.spec
        ∧ e.stage.Carries e.spec.delegationDepth := by
    intro k e he
    rw [getElem?_place, Option.map_eq_some_iff] at he
    obtain ⟨e₀, he₀, he⟩ := he
    by_cases hk : place = k
    · rw [if_pos hk] at he
      subst hk he
      exact ⟨e₀, he₀, rfl, rfl, hcarries e₀ he₀⟩
    · rw [if_neg hk] at he
      subst he
      exact ⟨e₀, he₀, rfl, rfl, h.carries e₀ (List.mem_of_getElem? he₀)⟩
  refine ⟨fun k e he i hi => ?_, fun e he => ?_⟩
  · obtain ⟨e₀, he₀, hparent, hspec, -⟩ := hback k e he
    obtain ⟨hik, p, hp, hdepth⟩ :=
      h.bounded k e₀ he₀ i (hparent.trans hi)
    rw [hspec] at hdepth
    refine ⟨hik, if place = i then { p with stage := stage } else p, ?_, ?_⟩
    · rw [getElem?_place, hp]
      rfl
    · split
      · exact hdepth
      · exact hdepth
  · obtain ⟨k, hk⟩ := List.mem_iff_getElem?.1 he
    obtain ⟨-, -, -, -, hstage⟩ := hback k e hk
    exact hstage

theorem Sound.starts (h : Sound services s) {child : Bool} {depth : Nat}
    (hstarts : Starts services parent child depth s t)
    (hparent : ∀ i : Nat, parent = some i → child = true
      ∧ ∃ p : Execution, s.executions[i]? = some p
        ∧ p.spec.delegationDepth = depth) : Sound services t := by
  rcases hstarts with rfl | ⟨spec, stage, rfl, hcarries, hdepth⟩
  · exact h
  · refine h.append hcarries fun i hi => ?_
    obtain ⟨hchild, p, hp, hpd⟩ := hparent i hi
    obtain ⟨hsucc, hle⟩ := hdepth hchild
    exact ⟨p, hp, by rw [hpd]; exact hsucc, hle⟩

-- ============ the runs

def Direct (services : Services) : SpawnAction → Prop
  | .hostPrepared _ invocation =>
    invocation.requestsChildExecution = true →
      services.takesRoute invocation = false
  | .nested _ _ (.prepared invocation) =>
    services.takesRoute invocation = false
  | _ => True

theorem starts_nested {place : Nat} {runtimeContext : Metadata}
    (hid : (textAt runtimeContext "run_id").isSome = true) (call : NestedCall)
    (hdirect : Direct services (.nested place ids call)) (s : Tree) :
    Starts services (some place) true
      (delegationDepthFromMetadata runtimeContext) s
      ((call.run services ids place runtimeContext).run s).2 := by
  cases call with
  | invoke invocation =>
    have hstarts : Starts services (some place) _ _ s _ :=
      starts_invoke ids (some place)
        { invocation with metadata := runtimeContext } s
    rw [requestsChild_of_context invocation hid] at hstarts
    exact hstarts
  | prepared invocation =>
    have hstarts : Starts services (some place) _ _ s _ :=
      starts_invokePrepared ids (some place)
        { invocation with metadata := runtimeContext } s
        fun _ => hdirect
    rw [requestsChild_of_context invocation hid] at hstarts
    exact hstarts
  | skill call preparation =>
    exact starts_execute ids (some place)
      { call with runtimeMetadata := runtimeContext } preparation s

theorem starts_routed {place depth : Nat} {call : RoutedCall}
    (hcarries : (Stage.routed call).Carries depth)
    (preparation : SkillPreparation) (s : Tree) :
    Starts services (some place) true depth s
      ((call.run services ids place preparation).run s).2 := by
  cases call with
  | agent invocation =>
    obtain ⟨hdepth, hchild⟩ := hcarries
    have hstarts : Starts services (some place) _ _ s _ :=
      starts_invoke ids (some place) invocation s
    rw [hchild, hdepth] at hstarts
    exact hstarts
  | skill call =>
    have hdepth : delegationDepthFromMetadata call.runtimeMetadata
        = depth := hcarries
    have hstarts : Starts services (some place) _ _ s _ :=
      starts_execute ids (some place) call preparation s
    rw [hdepth] at hstarts
    exact hstarts

theorem Sound.step {a : SpawnAction} (h : Sound services s)
    (hstep : (spawning services).step s a = some t)
    (hdirect : Direct services a) : Sound services t := by
  have hstep' : Tree.step services s a = some t := hstep
  have hnone : ∀ i, (none : Option Nat) = some i → False :=
    fun i hi => by cases hi
  cases a with
  | session spec =>
    cases hstep'
    exact h.append trivial fun i hi => (hnone i hi).elim
  | host ids invocation =>
    cases hstep'
    exact h.starts (starts_invoke ids none invocation s)
      fun i hi => (hnone i hi).elim
  | hostPrepared ids invocation =>
    cases hstep'
    exact h.starts (starts_invokePrepared ids none invocation s hdirect)
      fun i hi => (hnone i hi).elim
  | start place settings =>
    unfold Tree.step at hstep'
    dsimp only at hstep'
    split at hstep'
    · next parent spec hget =>
      cases hstep'
      refine h.place fun e he => ?_
      rw [hget] at he
      cases he
      refine ⟨depth_runtimeContext spec settings, ?_⟩
      rw [runId_runtimeContext]
      rfl
    · cases hstep'
  | nested place ids call =>
    unfold Tree.step at hstep'
    dsimp only at hstep'
    split at hstep'
    · next parent spec runtimeContext hget =>
      cases hstep'
      obtain ⟨hdepth, hid⟩ := h.carries _ (List.mem_of_getElem? hget)
      refine h.starts (starts_nested hid call hdirect s) fun i hi => ?_
      cases hi
      exact ⟨rfl, _, hget, hdepth.symm⟩
    · cases hstep'
  | follow place ids preparation =>
    unfold Tree.step at hstep'
    dsimp only at hstep'
    split at hstep'
    · next parent spec call hget =>
      cases hstep'
      have hcarries := h.carries _ (List.mem_of_getElem? hget)
      have hended : Sound services (s.place place .ended) :=
        h.place fun _ _ => trivial
      refine hended.starts (starts_routed hcarries preparation _)
        fun i hi => ?_
      cases hi
      refine ⟨rfl, ⟨parent, spec, .ended⟩, ?_, rfl⟩
      rw [getElem?_place, hget, Option.map_some, if_pos rfl]
    · cases hstep'
  | finish place =>
    cases hstep'
    exact h.place fun _ _ => trivial

theorem sound_of_run {as : List SpawnAction}
    (hrun : (spawning services).run ⟨[]⟩ as = some s)
    (hdirect : ∀ u a u', (spawning services).Takes ⟨[]⟩ as u a u' →
      Direct services a) : Sound services s :=
  System.visits_of_takes (I := fun _ => True) (fun _ _ _ _ _ => trivial)
    (fun _ _ _ _ h hstep ha => h.step hstep ha) trivial Sound.empty hdirect
    (System.Visits.finish hrun)

-- ============== chains

/-- The second execution is a child of the first. -/
def Tree.Child (s : Tree) (i k : Nat) : Prop :=
  ∃ e : Execution, s.executions[k]? = some e ∧ e.parent = some i

theorem chain_length (h : Bounded services s) {path : List Nat} {i : Nat}
    (hpath : List.IsChain s.Child (i :: path)) {p : Execution}
    (hp : s.executions[i]? = some p) :
    path = [] ∨ p.spec.delegationDepth + path.length ≤ services.maxDepth := by
  induction path generalizing i p with
  | nil => exact Or.inl rfl
  | cons k path ih =>
    obtain ⟨⟨e, he, hparent⟩, hrest⟩ := List.isChain_cons_cons.1 hpath
    obtain ⟨-, p', hp', hdepth, hle⟩ := h k e he i hparent
    rw [hp] at hp'
    cases hp'
    refine Or.inr ?_
    rw [List.length_cons]
    rcases ih hrest he with rfl | hlen
    · rw [List.length_nil]
      omega
    · omega

-- ============ refusals

/-- The call would start an execution: its agent is known, and its skill
forks and is let through. -/
def NestedCall.Spawns (services : Services) : NestedCall → Prop
  | .invoke invocation =>
    (services.agentRegistry.get? invocation.agentName).isSome = true
  | .prepared invocation =>
    (services.agentRegistry.get? invocation.agentName).isSome = true
  | .skill call (.expanded _ _ _ _) =>
    ∃ skill, services.skillRegistry.get? call.skillName = some skill
      ∧ skill.forks = true
      ∧ (services.agentRegistry.get?
        ((orText skill.agent none).getD "general-purpose")).isSome = true
  | .skill _ (.refused _) => False

def RoutedCall.Spawns (services : Services)
    (preparation : SkillPreparation) : RoutedCall → Prop
  | .agent invocation => NestedCall.Spawns services (.invoke invocation)
  | .skill call => NestedCall.Spawns services (.skill call preparation)

/-- The call is refused, and has started nothing. -/
def Refused (services : Services) (depth : Nat) (s : Tree)
    (result : Except SpawnError Unit × Tree) : Prop :=
  ∃ label source mode, result = (.error (.delegation depth (depth + 1)
    services.maxDepth label source mode), s)

section Invocation

variable (hagent : (services.agentRegistry.get?
    invocation.agentName).isSome = true)
  (hchild : invocation.requestsChildExecution = true)
  (hdepth : services.maxDepth
    ≤ delegationDepthFromMetadata invocation.metadata)

include hagent hchild hdepth

theorem refused_invoke :
    Refused services (delegationDepthFromMetadata invocation.metadata) s
      ((invoke services ids parent invocation).run s) := by
  obtain ⟨agent, hagent⟩ := Option.isSome_iff_exists.1 hagent
  unfold invoke Services.resolveAgent
  rw [hagent, orRaise_some, run_lift_ok_bind]
  rcases withChildDelegationDepth_cases services invocation with
    ⟨hno, -⟩ | ⟨-, -, label, source, mode, hinv⟩ | ⟨-, hlt, -⟩
  · rw [hchild] at hno
    cases hno
  · rw [hinv, run_lift_error_bind]
    exact ⟨label, source, mode, rfl⟩
  · exact absurd hlt (Nat.not_lt.2 hdepth)

theorem refused_invokePrepared :
    Refused services (delegationDepthFromMetadata invocation.metadata) s
      ((invokePrepared services ids parent invocation).run s) := by
  obtain ⟨agent, hagent⟩ := Option.isSome_iff_exists.1 hagent
  unfold invokePrepared prepareExecution Services.resolveAgent
  rw [hagent, orRaise_some, ok_bind]
  rcases withChildDelegationDepth_cases services invocation with
    ⟨hno, -⟩ | ⟨-, -, label, source, mode, hinv⟩ | ⟨-, hlt, -⟩
  · rw [hchild] at hno
    cases hno
  · rw [hinv, error_bind, run_lift_error_bind]
    exact ⟨label, source, mode, rfl⟩
  · exact absurd hlt (Nat.not_lt.2 hdepth)

end Invocation

theorem refused_execute {call : SkillCall} {preparation : SkillPreparation}
    (hspawns : (NestedCall.skill call preparation).Spawns services)
    (hdepth : services.maxDepth
      ≤ delegationDepthFromMetadata call.runtimeMetadata) :
    Refused services (delegationDepthFromMetadata call.runtimeMetadata) s
      ((execute services ids parent call preparation).run s) := by
  cases preparation with
  | refused e => exact hspawns.elim
  | expanded prompt permission state trace =>
    obtain ⟨skill, hskill, hforks, hagent⟩ := hspawns
    unfold execute
    rw [hskill, orRaise_some, run_lift_ok_bind]
    dsimp only
    rw [if_pos hforks]
    rw [← depth_fork ids skill call prompt permission state trace]
      at hdepth ⊢
    exact refused_invoke hagent (requestsChild_fork ..) hdepth

/-- Where an execution has the greatest depth there is, every call for it
that would start another one is refused. -/
structure Refuses (services : Services) (s : Tree) : Prop where
  nested : ∀ (place : Nat) (e : Execution) (runtimeContext : Metadata),
    s.executions[place]? = some e → e.stage = .running runtimeContext →
    services.maxDepth ≤ e.spec.delegationDepth →
    ∀ (ids : FreshIds) (call : NestedCall), call.Spawns services →
      Refused services e.spec.delegationDepth s
        ((call.run services ids place runtimeContext).run s)
  routed : ∀ (place : Nat) (e : Execution) (call : RoutedCall),
    s.executions[place]? = some e → e.stage = .routed call →
    services.maxDepth ≤ e.spec.delegationDepth →
    ∀ (ids : FreshIds) (preparation : SkillPreparation),
      call.Spawns services preparation →
      Refused services e.spec.delegationDepth s
        ((call.run services ids place preparation).run s)

theorem refuses_of_sound (h : Sound services s) : Refuses services s := by
  refine ⟨fun place e runtimeContext hget hstage hdepth ids call hspawns =>
    ?_, fun place e call hget hstage hdepth ids preparation hspawns => ?_⟩
  · have hcarries := h.carries e (List.mem_of_getElem? hget)
    rw [hstage] at hcarries
    obtain ⟨hcontext, hid⟩ := hcarries
    rw [← hcontext] at hdepth ⊢
    cases call with
    | invoke invocation =>
      exact refused_invoke hspawns (requestsChild_of_context _ hid) hdepth
    | prepared invocation =>
      exact refused_invokePrepared hspawns
        (requestsChild_of_context _ hid) hdepth
    | skill call preparation =>
      cases preparation with
      | refused e => exact hspawns.elim
      | expanded prompt permission state trace =>
        have hspawns' : (NestedCall.skill
            { call with runtimeMetadata := runtimeContext }
            (.expanded prompt permission state trace)).Spawns services :=
          hspawns
        exact refused_execute hspawns' hdepth
  · have hcarries := h.carries e (List.mem_of_getElem? hget)
    rw [hstage] at hcarries
    cases call with
    | agent invocation =>
      obtain ⟨hinv, hchild⟩ := hcarries
      rw [← hinv] at hdepth ⊢
      exact refused_invoke hspawns hchild hdepth
    | skill call =>
      have hcall : delegationDepthFromMetadata call.runtimeMetadata
          = e.spec.delegationDepth := hcarries
      rw [← hcall] at hdepth ⊢
      exact refused_execute hspawns hdepth

-- ========== the result

/-- In every run whose prepared children take no route, each child is one
deeper than its parent and within the bound, no chain of children is longer
than the bound, and a call beyond it is refused before it starts
anything. -/
theorem delegation_bounded (services : Services) (as : List SpawnAction)
    (s : Tree) (hrun : (spawning services).run ⟨[]⟩ as = some s)
    (hdirect : ∀ u a u', (spawning services).Takes ⟨[]⟩ as u a u' →
      Direct services a) :
    Bounded services s
      ∧ (∀ i path, List.IsChain s.Child (i :: path) →
        path.length ≤ services.maxDepth)
      ∧ Refuses services s := by
  have hsound := sound_of_run hrun hdirect
  refine ⟨hsound.bounded, fun i path hpath => ?_, refuses_of_sound hsound⟩
  cases path with
  | nil => exact Nat.zero_le _
  | cons k path =>
    obtain ⟨⟨e, he, hparent⟩, -⟩ := List.isChain_cons_cons.1 hpath
    obtain ⟨-, p, hp, -⟩ := hsound.bounded k e he i hparent
    rcases chain_length hsound.bounded hpath hp with hnil | hlen
    · cases hnil
    · omega

-- ============ two runs

def sampleId : UuidHex :=
  ⟨"00000000000000000000000000000000", by decide +kernel⟩

def sampleIds : FreshIds := ⟨sampleId, sampleId, sampleId⟩

/-- Two agents, and the default policy. -/
def sampleServices : Services where
  metadata := .empty
  agentRegistry := (Dict.empty.insert "main-router"
    ⟨"main-router", false⟩).insert "worker" ⟨"worker", false⟩
  skillRegistry := .empty

def sampleSettings : RunSettings where
  resolvedModelRoute := none
  providerName := none
  resolvedCapabilities := .none
  providerContextWindowProfiles := .none
  routeContextWindowPolicy := .none
  invocationMode := .none
  requestedPermissionMode := .none
  requestedIsolation := .none
  permissionContext := .none
  executionPolicyState := .none
  isolation := .none

def sampleInvocation (agentName prompt : String) : AgentInvocation where
  agentName := agentName
  prompt := prompt
  sessionId := "s1"
  metadata := .empty

/-- An agent that runs, and a call from inside it. -/
def sampleRun (call : NestedCall) : List SpawnAction :=
  [.host sampleIds (sampleInvocation "worker" "go"),
    .start 0 sampleSettings, .nested 0 sampleIds call]

def Tree.depths (s : Tree) : List (Option Nat × Nat) :=
  s.executions.map fun e => (e.parent, e.spec.delegationDepth)

/-- A child of the agent, and a call from the child. -/
def directRun : List SpawnAction :=
  sampleRun (.invoke (sampleInvocation "worker" "on"))
    ++ [.start 1 sampleSettings,
      .nested 1 sampleIds (.invoke (sampleInvocation "worker" "further"))]

theorem depths_directRun :
    ((spawning sampleServices).run ⟨[]⟩ directRun).map Tree.depths
      = some [(none, 0), (some 0, 1)] := by
  decide +kernel

theorem delegation_bounded_direct :
    ∃ s, (spawning sampleServices).run ⟨[]⟩ directRun = some s
      ∧ s.depths = [(none, 0), (some 0, 1)]
      ∧ Bounded sampleServices s := by
  obtain ⟨s, hrun, hdepths⟩ := Option.map_eq_some_iff.1 depths_directRun
  refine ⟨s, hrun, hdepths, (delegation_bounded sampleServices directRun s
    hrun fun u a u' htakes => ?_).1⟩
  obtain ⟨p, q, has, -, -⟩ := htakes
  have ha : a ∈ directRun := by
    rw [has]
    exact List.mem_append_right _ List.mem_cons_self
  simp only [directRun, sampleRun, List.cons_append, List.nil_append,
    List.mem_cons, List.not_mem_nil, or_false] at ha
  rcases ha with rfl | rfl | rfl | rfl | rfl
  all_goals exact trivial

/-- The prepared main router is a child, at the greatest depth there is. Its
prompt names another agent, which is started at the same depth. -/
def routedRun : List SpawnAction :=
  sampleRun (.prepared (sampleInvocation "main-router" "/agent worker on"))
    ++ [.follow 1 sampleIds (.refused .valueError)]

theorem depths_routedRun :
    ((spawning sampleServices).run ⟨[]⟩ routedRun).map Tree.depths
      = some [(none, 0), (some 0, 1), (some 1, 1)] := by
  decide +kernel

theorem child_of_depths {k i d : Nat} (h : s.depths[k]? = some (some i, d)) :
    ∃ e : Execution, s.executions[k]? = some e ∧ e.parent = some i
      ∧ e.spec.delegationDepth = d := by
  unfold Tree.depths at h
  rw [List.getElem?_map, Option.map_eq_some_iff] at h
  obtain ⟨e, he, heq⟩ := h
  obtain ⟨hparent, hdepth⟩ := Prod.mk.inj heq
  exact ⟨e, he, hparent, hdepth⟩

theorem delegation_unbounded :
    sampleServices.maxDepth = 1
      ∧ ∃ s, (spawning sampleServices).run ⟨[]⟩ routedRun = some s
        ∧ ¬ Bounded sampleServices s
        ∧ List.IsChain s.Child [0, 1, 2] := by
  refine ⟨by decide +kernel, ?_⟩
  obtain ⟨s, hrun, hdepths⟩ := Option.map_eq_some_iff.1 depths_routedRun
  obtain ⟨router, hrouter, hrouter₀, hrouterDepth⟩ : ∃ e : Execution,
      s.executions[1]? = some e ∧ e.parent = some 0
        ∧ e.spec.delegationDepth = 1 :=
    child_of_depths (by rw [hdepths]; rfl)
  obtain ⟨worker, hworker, hworker₁, hworkerDepth⟩ : ∃ e : Execution,
      s.executions[2]? = some e ∧ e.parent = some 1
        ∧ e.spec.delegationDepth = 1 :=
    child_of_depths (by rw [hdepths]; rfl)
  refine ⟨s, hrun, fun hbounded => ?_, ?_⟩
  · obtain ⟨-, p, hp, hdepth, -⟩ := hbounded 2 worker hworker 1 hworker₁
    rw [hrouter] at hp
    cases hp
    omega
  · refine .cons_cons ⟨router, hrouter, hrouter₀⟩ ?_
    exact .cons_cons ⟨worker, hworker, hworker₁⟩ (.singleton _)

end WeaveRuntime.Spawning
