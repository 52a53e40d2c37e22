/-
The model, effort, route, mode and token limit of a request.

A request takes them field by field from the pending override, and where
the override leaves a field alone from what the turn has for it: the
agent, the route that is resolved, the runtime context. An override is
merged into the request twice, before and after the `PreModelRequest`
hooks, and the second time wins.

What the turn has for a field is the same for all its requests
(`RequestDefaults`): the agent is, and resolving the route a second time
finds what the first time has written down (`applyRoute_settles`).
-/
import WeaveRuntime.ContextWindow.Routes
import WeaveRuntime.TurnEngine.Loop
import WeaveRuntime.TurnEngine.ToolExecutor

namespace WeaveRuntime.TurnEngine

open Lib Python
open ContextWindow (ModelProviderBinding ModelRouteBinding
  ResolvedModelRouteBinding RouteError resolveModelRouteBinding)

-- ======== the requests

/-- What an override can change of a request. -/
structure RequestSettings where
  model : Option String
  effort : PyVal
  maxOutputTokens : Option Int
  requestedModelRoute : Option String
  invocationMode : Option ModelInvocationMode

structure ModelRequest (E : Type) where
  settings : RequestSettings
  rest : E

/-- What a request takes where no override says otherwise. -/
structure RequestDefaults where
  model : Option String
  effort : PyVal
  requestedModelRoute : Option String
  invocationMode : ModelInvocationMode

def coerceModeOverride : PyVal → Option ModelInvocationMode
  | .none => none
  | value => coerceInvocationMode (some (pyStr value))

namespace RequestDefaults

/-- The settings with which the request is built. -/
def compose (d : RequestDefaults) (pending : Option RequestOverrideState) :
    RequestSettings :=
  match pending with
  | none =>
    { model := d.model, effort := d.effort, maxOutputTokens := none
      requestedModelRoute := d.requestedModelRoute
      invocationMode := some d.invocationMode }
  | some o =>
    { model := o.requestedModel.or d.model
      effort := keepSet o.requestedEffort d.effort
      maxOutputTokens := o.maxOutputTokensOverride
      requestedModelRoute :=
        o.requestedModelRoute.or d.requestedModelRoute
      invocationMode := (coerceModeOverride o.invocationModeOverride).or
        (some d.invocationMode) }

/-- The settings of a request under an override. A mode that names none
leaves the request without one. -/
def settings (d : RequestDefaults) (pending : Option RequestOverrideState) :
    RequestSettings :=
  let o := pending.getD {}
  { model := o.requestedModel.or d.model
    effort := keepSet o.requestedEffort d.effort
    maxOutputTokens := o.maxOutputTokensOverride
    requestedModelRoute := o.requestedModelRoute.or d.requestedModelRoute
    invocationMode :=
      if isNone o.invocationModeOverride then some d.invocationMode
      else coerceModeOverride o.invocationModeOverride }

end RequestDefaults

/-- `replace(request, ...)` after the `PreModelRequest` hooks. -/
def RequestSettings.overridden (r : RequestSettings)
    (pending : Option RequestOverrideState) : RequestSettings :=
  match pending with
  | none => r
  | some o =>
    { model := o.requestedModel.or r.model
      effort := keepSet o.requestedEffort r.effort
      maxOutputTokens := o.maxOutputTokensOverride.or r.maxOutputTokens
      requestedModelRoute := o.requestedModelRoute.or r.requestedModelRoute
      invocationMode :=
        if isNone o.invocationModeOverride then r.invocationMode
        else coerceModeOverride o.invocationModeOverride }

-- =========== the merge

@[simp] theorem none_keepSet (v : PyVal) : keepSet .none v = v := rfl

@[simp] theorem keepSet_none (v : PyVal) : keepSet v .none = v := by
  cases v <;> rfl

theorem keepSet_assoc (a b c : PyVal) :
    keepSet (keepSet a b) c = keepSet a (keepSet b c) := by
  cases a <;> rfl

theorem isNone_eq_true {v : PyVal} : isNone v = true ↔ v = .none := by
  cases v <;> simp [isNone]

theorem isNone_keepSet (a b : PyVal) :
    isNone (keepSet a b) = (isNone a && isNone b) := by
  cases a <;> rfl

namespace RequestOverrideState

theorem truthy_combine (current incoming : RequestOverrideState)
    (h : current.truthy = true ∨ incoming.truthy = true) :
    (combine current incoming).truthy = true := by
  unfold truthy at h ⊢
  simp only [combine, isNone_keepSet, Bool.or_eq_true, Option.isSome_or,
    Bool.not_eq_true', Bool.and_eq_false_iff] at h ⊢
  tauto

end RequestOverrideState

structure RequestOverrideState.Extends
    (o current : RequestOverrideState) : Prop where
  model : o.requestedModel.or current.requestedModel = o.requestedModel
  effort : keepSet o.requestedEffort current.requestedEffort
    = o.requestedEffort
  tokens : o.maxOutputTokensOverride.or current.maxOutputTokensOverride
    = o.maxOutputTokensOverride
  route : o.requestedModelRoute.or current.requestedModelRoute
    = o.requestedModelRoute
  mode : isNone o.invocationModeOverride = true →
    current.invocationModeOverride = .none

theorem RequestOverrideState.extends_self (o : RequestOverrideState) :
    o.Extends o where
  model := Option.or_self
  effort := by
    cases o.requestedEffort <;> rfl
  tokens := Option.or_self
  route := Option.or_self
  mode := isNone_eq_true.1

theorem RequestOverrideState.extends_combine
    (current incoming : RequestOverrideState) :
    (combine current incoming).Extends current where
  model := by simp [combine, Option.or_assoc]
  effort := by
    simp only [combine, keepSet_assoc]
    cases current.requestedEffort <;> rfl
  tokens := by simp [combine, Option.or_assoc]
  route := by simp [combine, Option.or_assoc]
  mode := by
    intro h
    simp only [combine, isNone_keepSet, Bool.and_eq_true] at h
    exact isNone_eq_true.1 h.2

theorem overridden_of_extends (d : RequestDefaults)
    {current o : RequestOverrideState} (h : o.Extends current) :
    (d.compose (some current)).overridden (some o) = d.settings (some o) := by
  have hmodel : o.requestedModel.or (current.requestedModel.or d.model)
      = o.requestedModel.or d.model := by
    rw [← Option.or_assoc, h.model]
  have heffort : keepSet o.requestedEffort
      (keepSet current.requestedEffort d.effort)
      = keepSet o.requestedEffort d.effort := by
    rw [← keepSet_assoc, h.effort]
  have hroute : o.requestedModelRoute.or
      (current.requestedModelRoute.or d.requestedModelRoute)
      = o.requestedModelRoute.or d.requestedModelRoute := by
    rw [← Option.or_assoc, h.route]
  have hmode : (if isNone o.invocationModeOverride then
        (coerceModeOverride current.invocationModeOverride).or
          (some d.invocationMode)
      else coerceModeOverride o.invocationModeOverride)
      = if isNone o.invocationModeOverride then some d.invocationMode
      else coerceModeOverride o.invocationModeOverride := by
    by_cases hnone : isNone o.invocationModeOverride = true
    · rw [if_pos hnone, if_pos hnone, h.mode hnone]
      rfl
    · rw [if_neg hnone, if_neg hnone]
  simp only [RequestSettings.overridden, RequestDefaults.compose,
    RequestDefaults.settings, Option.getD_some]
  rw [hmodel, heffort, hroute, hmode, h.tokens]

theorem merge_some_some {c i : RequestOverrideState} (h : c.truthy = true) :
    RequestOverrideState.merge (some c) (some i)
      = some (RequestOverrideState.combine c i) :=
  if_pos (RequestOverrideState.truthy_combine c i (.inl h))

/-- Building with an override and replacing by what the hooks have made of
it comes to the settings under that. -/
theorem overridden_compose (d : RequestDefaults)
    (pending incoming : Option RequestOverrideState)
    (hpending : ∀ o, pending = some o → o.truthy = true) :
    (d.compose pending).overridden
        (RequestOverrideState.merge pending incoming)
      = d.settings (RequestOverrideState.merge pending incoming) := by
  cases pending with
  | none =>
    cases incoming with
    | none => rfl
    | some o =>
      simp only [RequestOverrideState.merge, RequestSettings.overridden,
        RequestDefaults.compose, RequestDefaults.settings,
        Option.getD_some, Option.or_none]
      rfl
  | some current =>
    cases incoming with
    | none =>
      exact overridden_of_extends d (RequestOverrideState.extends_self _)
    | some o =>
      rw [merge_some_some (hpending current rfl)]
      exact overridden_of_extends d
        (RequestOverrideState.extends_combine current o)

theorem truthy_merge {current incoming : Option RequestOverrideState}
    (hcurrent : ∀ o, current = some o → o.truthy = true)
    (hincoming : ∀ o, incoming = some o → o.truthy = true)
    {o : RequestOverrideState}
    (h : RequestOverrideState.merge current incoming = some o) :
    o.truthy = true := by
  cases incoming with
  | none => exact hcurrent o h
  | some i =>
    cases current with
    | none => exact hincoming o h
    | some c =>
      rw [merge_some_some (hcurrent c rfl)] at h
      cases h
      exact RequestOverrideState.truthy_combine c i (.inl (hcurrent c rfl))

/-- The collaborators of a turn whose requests are built from `d`:
`composition` makes the rest of a request, and `selectToolExecutor`
completes it. -/
def Collaborators.requesting {W M E : Type}
    (env : Collaborators W M (ModelRequest E)) (d : RequestDefaults)
    (composition : List M → PrivateContext → Option RequestOverrideState →
      Method W String E)
    (selectToolExecutor : ModelRequest E → Method W String (E × Bool)) :
    Collaborators W M (ModelRequest E) :=
  { env with
    compose := fun messages effective pending => do
      let rest ← composition messages effective pending
      pure { settings := d.compose pending, rest := rest }
    finishRequest := fun request pending => do
      let settings := request.settings.overridden pending
      let selected ← selectToolExecutor
        { settings := settings, rest := request.rest }
      pure ({ settings := settings, rest := selected.1 }, selected.2) }

-- ======== the defaults

/-- The route fields of the private context. A text read from it is not
empty. -/
structure RouteContext where
  requested : Option String := none
  resolved : Option String := none

/-- What a turn knows of its route: the agent's, the runtime context's and
the engine's. -/
structure RouteSource (Client : Type) where
  agentModel : Option String
  agentEffort : PyVal
  agentModelRoute : Option String
  contextRequested : Option String
  contextResolved : Option String
  contextInvocationMode : PyVal
  environ : String → Option String
  defaultModelRoute : Option String
  modelProviders :
    Dict String (ModelProviderBinding Client NormalizedModelCapabilities)
  modelRoutes :
    Dict String (ModelRouteBinding Client NormalizedModelCapabilities)
  /-- `model_capabilities_for` the client of the engine or of a binding. -/
  capabilitiesFor : Option Client → NormalizedModelCapabilities

namespace RouteSource

variable {Client : Type}

abbrev Resolved (Client : Type) :=
  ResolvedModelRouteBinding Client NormalizedModelCapabilities

/-- `runtime_metadata.get("requested_model_route")`. -/
def runtimeRequested (src : RouteSource Client) (c : RouteContext) :
    Option String :=
  c.requested.or src.contextRequested

/-- `resolve_model_route_binding`, as the turn calls it. -/
def resolve (src : RouteSource Client) (c : RouteContext) :
    Except RouteError (Option String × Option (Resolved Client)) :=
  resolveModelRouteBinding src.environ (src.runtimeRequested c)
    src.agentModelRoute (c.resolved.or src.contextResolved)
    src.defaultModelRoute src.modelProviders src.modelRoutes

/-- `_apply_route_runtime_metadata`, with `_resolve_route_runtime_metadata`
in it. -/
def applyRoute (src : RouteSource Client) (c : RouteContext) :
    Except RouteError (RouteContext × Option (Resolved Client)) :=
  if src.modelRoutes.entries = [] ∧ src.defaultModelRoute = none then
    .ok (c, none)
  else do
    let resolved ← src.resolve c
    match resolved.2 with
    | none => .ok (c, none)
    | some binding =>
      .ok
        ({ requested := textOr c.requested
            (textOr (src.runtimeRequested c) src.agentModelRoute)
           resolved := resolved.1 }, some binding)

def defaults (src : RouteSource Client) (c : RouteContext)
    (binding : Option (Resolved Client)) : RequestDefaults where
  model := textOr src.agentModel (binding.bind (·.defaultModel))
  effort := src.agentEffort
  requestedModelRoute :=
    textOr (src.runtimeRequested c) src.agentModelRoute
  invocationMode := (coerceModeOverride src.contextInvocationMode).getD
    (selectInvocationMode ((binding.bind (·.capabilities)).getD
      (src.capabilitiesFor (binding.map (·.client)))))

def routeName (src : RouteSource Client) (c : RouteContext) :
    Option String :=
  textOr (src.runtimeRequested c) (textOr src.agentModelRoute
    (textOr (c.resolved.or src.contextResolved) src.defaultModelRoute))

-- ==== the route is settled

theorem textOr_assoc (a b c : Option String) :
    textOr (textOr a b) c = textOr a (textOr b c) := by
  cases a with
  | none => rfl
  | some text =>
    by_cases h : text = ""
    · simp [textOr, h]
    · simp [textOr, h]

theorem textOr_self (a : Option String) : textOr a a = a := by
  cases a with
  | none => rfl
  | some text => by_cases h : text = "" <;> simp [textOr, h]

/-- A text that was found is found again in the place of what was
inherited. -/
theorem textOr_settles {a inherited fallback : Option String} {text : String}
    (h : textOr a (textOr inherited fallback) = some text) :
    textOr a (textOr (some text) fallback) = some text := by
  have hinherited : ∀ {b : Option String}, textOr b fallback = some text →
      textOr (some text) fallback = some text := by
    intro b hb
    by_cases htext : text = ""
    · cases b with
      | none => simpa [textOr, htext] using hb
      | some inner =>
        by_cases hinner : inner = ""
        · simpa [textOr, htext, hinner] using hb
        · simp [textOr, hinner, htext] at hb
    · simp [textOr, htext]
  cases a with
  | none => exact hinherited h
  | some outer =>
    by_cases houter : outer = ""
    · simp only [textOr, if_pos houter] at h ⊢
      exact hinherited h
    · simpa [textOr, houter] using h

theorem resolve_congr (src : RouteSource Client) {c c' : RouteContext}
    (h : src.routeName c' = src.routeName c) :
    src.resolve c' = src.resolve c := by
  have hname : ContextWindow.textOr (src.runtimeRequested c')
      (ContextWindow.textOr src.agentModelRoute (ContextWindow.textOr
        (c'.resolved.or src.contextResolved) src.defaultModelRoute))
      = ContextWindow.textOr (src.runtimeRequested c)
        (ContextWindow.textOr src.agentModelRoute (ContextWindow.textOr
          (c.resolved.or src.contextResolved) src.defaultModelRoute)) := h
  unfold resolve resolveModelRouteBinding
  rw [hname]

/-- A route that is found is found under the text it is looked up by. -/
theorem resolve_name {src : RouteSource Client} {c : RouteContext}
    {route : Option String} {binding : Resolved Client}
    (h : src.resolve c = .ok (route, some binding)) :
    ∃ name, src.routeName c = some name ∧ route = some name := by
  unfold resolve resolveModelRouteBinding at h
  split at h
  · cases h
  · next name hname =>
    obtain ⟨found, -, h⟩ := bind_eq_ok.1 h
    obtain ⟨client, -, h⟩ := bind_eq_ok.1 h
    injection h with h
    injection h with hroute _
    exact ⟨name, hname, hroute.symm⟩

section Settled

variable {src : RouteSource Client} {c : RouteContext}

/-- The text a turn asks for its route by, before any is inherited. -/
def asked (src : RouteSource Client) (c : RouteContext) : Option String :=
  textOr (src.runtimeRequested c) src.agentModelRoute

/-- The private context once the route is resolved. -/
def written (src : RouteSource Client) (c : RouteContext) : RouteContext where
  requested := textOr c.requested (src.asked c)
  resolved := src.routeName c

theorem requested_written (hc : c.requested ≠ some "") :
    (src.written c).requested = src.asked c := by
  unfold written asked runtimeRequested
  cases hreq : c.requested with
  | none => rfl
  | some text =>
    have htext : text ≠ "" := fun h => hc (hreq.trans (congrArg some h))
    simp [textOr, htext]

theorem asked_written (hc : c.requested ≠ some "") :
    src.asked (src.written c) = src.asked c := by
  have hwritten : (src.written c).requested = src.asked c :=
    requested_written hc
  unfold asked at hwritten ⊢
  unfold runtimeRequested at hwritten ⊢
  rw [hwritten]
  cases hreq : c.requested with
  | some text =>
    have htext : text ≠ "" := fun h => hc (hreq.trans (congrArg some h))
    simp [textOr, htext]
  | none =>
    rw [Option.none_or]
    cases src.contextRequested with
    | none => cases src.agentModelRoute with
      | none => rfl
      | some agent => by_cases h : agent = "" <;> simp [textOr, h]
    | some text =>
      by_cases htext : text = ""
      · cases src.agentModelRoute with
        | none => simp [textOr, htext]
        | some agent =>
          by_cases h : agent = "" <;> simp [textOr, h, htext]
      · simp [textOr, htext]

theorem routeName_eq (src : RouteSource Client) (c : RouteContext) :
    src.routeName c = textOr (src.asked c)
      (textOr (c.resolved.or src.contextResolved) src.defaultModelRoute) :=
  (textOr_assoc _ _ _).symm

theorem routeName_written (hc : c.requested ≠ some "") {name : String}
    (hname : src.routeName c = some name) :
    src.routeName (src.written c) = some name := by
  have hresolved : (src.written c).resolved = some name := hname
  rw [routeName_eq] at hname ⊢
  rw [asked_written hc, hresolved]
  exact textOr_settles hname

theorem applyRoute_settles (hc : c.requested ≠ some "") {c' : RouteContext}
    {binding : Option (Resolved Client)}
    (h : src.applyRoute c = .ok (c', binding)) :
    src.applyRoute c' = .ok (c', binding)
      ∧ src.defaults c' binding = src.defaults c binding := by
  unfold applyRoute at h
  split at h
  · next hnone =>
    cases h
    exact ⟨if_pos hnone, rfl⟩
  · next hroutes =>
    obtain ⟨resolved, hresolve, h⟩ := bind_eq_ok.1 h
    obtain ⟨route, found⟩ := resolved
    cases found with
    | none =>
      cases h
      refine ⟨?_, rfl⟩
      unfold applyRoute
      rw [if_neg hroutes, hresolve]
      rfl
    | some found =>
      obtain ⟨name, hname, hroute⟩ := resolve_name hresolve
      have hwritten : c' = src.written c ∧ binding = some found := by
        injection h with h
        injection h with hc' hbinding
        refine ⟨?_, hbinding.symm⟩
        rw [← hc', hroute, ← hname]
        rfl
      obtain ⟨rfl, rfl⟩ := hwritten
      have hagain : src.resolve (src.written c)
          = .ok (some name, some found) := by
        rw [resolve_congr src ((routeName_written hc hname).trans
          hname.symm), hresolve, hroute]
      have hrequested : textOr (src.written c).requested
          (src.asked (src.written c)) = (src.written c).requested := by
        rw [asked_written hc, requested_written hc, textOr_self]
      refine ⟨?_, ?_⟩
      · unfold applyRoute
        rw [if_neg hroutes, hagain, ← hname]
        exact congrArg (fun r => Except.ok
          (RouteContext.mk r (src.routeName c), some found)) hrequested
      · exact congrArg (fun route => { src.defaults c (some found) with
          requestedModelRoute := route }) (asked_written hc)

end Settled

/-- An agent that names the one route there is. -/
def mainSource : RouteSource Unit where
  agentModel := none
  agentEffort := .none
  agentModelRoute := some "main"
  contextRequested := none
  contextResolved := none
  contextInvocationMode := .none
  environ := fun _ => none
  defaultModelRoute := none
  modelProviders := .empty
  modelRoutes := Dict.empty.insert "main"
    ⟨some (), none, none, none, none, [], .empty, none, rfl⟩
  capabilitiesFor := fun _ => {}

theorem applyRoute_settles_main : ∃ c binding,
    mainSource.applyRoute {} = .ok (c, some binding)
      ∧ mainSource.applyRoute c = .ok (c, some binding) := by
  have h : mainSource.applyRoute {} = .ok (_, some _) := rfl
  exact ⟨_, _, h, (applyRoute_settles (by decide) h).1⟩

end RouteSource

end WeaveRuntime.TurnEngine
