/-
Model routes: what a route and its provider are bound to, and the
context-window profiles of a resolved route.

A provider binding and a route binding each carry a list of profiles that
validation has reported nothing for. A resolved route has the two lists one
after the other, and nothing compares a profile of the one with a profile
of the other. What resolution can be ambiguous about is therefore said in
three parts (`NoClash`): no profile of the provider and profile of the route
are rivals for the model, and the rivals of either list are ones that its
validation has compared.
-/
import WeaveRuntime.ContextWindow.Ambiguity
import WeaveRuntime.Lib.Dict
import WeaveRuntime.Python.Value

namespace WeaveRuntime.ContextWindow

open Lib
open Python

variable {Client Capabilities : Type}

-- ============ bindings

structure RouteContextWindowPolicy where
  profileRef : Option String
  deriving DecidableEq

structure ModelProviderBinding (Client Capabilities : Type) where
  client : Client
  providerName : String
  capabilities : Option Capabilities
  contextWindowProfiles : List ModelContextWindowProfile
  metadata : Dict String PyVal
  validated : validateModelContextWindowProfiles contextWindowProfiles = []

structure ModelRouteBinding (Client Capabilities : Type) where
  client : Option Client
  defaultModel : Option String
  providerName : Option String
  providerBinding : Option String
  contextWindowPolicy : Option RouteContextWindowPolicy
  contextWindowProfiles : List ModelContextWindowProfile
  metadata : Dict String PyVal
  capabilities : Option Capabilities
  validated : validateModelContextWindowProfiles contextWindowProfiles = []

structure ResolvedModelRouteBinding (Client Capabilities : Type) where
  client : Client
  defaultModel : Option String
  providerName : Option String
  capabilities : Option Capabilities
  contextWindowPolicy : Option RouteContextWindowPolicy
  contextWindowProfiles : List ModelContextWindowProfile
  metadata : Dict String PyVal

/-- The `ValueError`s of `resolve_model_route_binding`. -/
inductive RouteError where
  | unknownRoute (route : String)
  | noClient (route : String)
  deriving DecidableEq

def RouteError.message : RouteError → String
  | .unknownRoute route => "Unknown model route: " ++ route
  | .noClient route =>
    "Model route '" ++ route ++ "' does not resolve a model client"

def coerceOptionalString : Option PyVal → Option String
  | some (.str text) =>
    if pyStrip text = "" then none else some (pyStrip text)
  | _ => none

def resolveRouteDefaultModel (environ : String → Option String)
    (defaultModel : Option String) (metadata : Dict String PyVal) :
    Option String :=
  let envName := (coerceOptionalString (metadata.get? "default_model_env")).or
    (coerceOptionalString (metadata.get? "model_env"))
  match envName with
  | some name =>
    let override := pyStrip ((environ name).getD "")
    if override ≠ "" then some override else defaultModel
  | none => defaultModel

def mergeMetadata (base update : Dict String PyVal) : Dict String PyVal :=
  update.entries.foldl (fun merged e => merged.insert e.1 e.2) base

def ModelRouteBinding.provider?
    (binding : ModelRouteBinding Client Capabilities)
    (modelProviders :
      Dict String (ModelProviderBinding Client Capabilities)) :
    Option (ModelProviderBinding Client Capabilities) :=
  binding.providerBinding.bind modelProviders.get?

/-- `tuple(provider_binding.context_window_profiles)`, of the provider if
there is one. -/
def providerProfiles
    (provider : Option (ModelProviderBinding Client Capabilities)) :
    List ModelContextWindowProfile :=
  (provider.map (·.contextWindowProfiles)).getD []

def resolveModelRouteBinding (environ : String → Option String)
    (requestedModelRoute agentModelRoute inheritedRoute defaultModelRoute :
      Option String)
    (modelProviders : Dict String (ModelProviderBinding Client Capabilities))
    (modelRoutes : Dict String (ModelRouteBinding Client Capabilities)) :
    Except RouteError (Option String
      × Option (ResolvedModelRouteBinding Client Capabilities)) :=
  match textOr requestedModelRoute (textOr agentModelRoute
    (textOr inheritedRoute defaultModelRoute)) with
  | none => .ok (none, none)
  | some resolvedRoute => do
    let binding ← orRaise (modelRoutes.get? resolvedRoute)
      (.unknownRoute resolvedRoute)
    let provider := binding.provider? modelProviders
    let client ← orRaise (binding.client.or (provider.map (·.client)))
      (.noClient resolvedRoute)
    let metadata :=
      (mergeMetadata ((provider.map (·.metadata)).getD .empty)
        binding.metadata).insert "provider_binding"
          ((binding.providerBinding.map .str).getD .none)
    return (some resolvedRoute, some
      { client := client
        defaultModel := resolveRouteDefaultModel environ
          binding.defaultModel metadata
        providerName := textOr binding.providerName
          (provider.map (·.providerName))
        capabilities := binding.capabilities.or
          (provider.bind (·.capabilities))
        contextWindowPolicy := binding.contextWindowPolicy
        contextWindowProfiles :=
          providerProfiles provider ++ binding.contextWindowProfiles
        metadata := metadata })

theorem contextWindowProfiles_resolved {environ : String → Option String}
    {requested agent inherited fallback : Option String}
    {providers : Dict String (ModelProviderBinding Client Capabilities)}
    {routes : Dict String (ModelRouteBinding Client Capabilities)}
    {route : String} {binding : ModelRouteBinding Client Capabilities}
    {resolved : ResolvedModelRouteBinding Client Capabilities}
    (h : resolveModelRouteBinding environ requested agent inherited fallback
      providers routes = .ok (some route, some resolved))
    (hbinding : routes.get? route = some binding) :
    resolved.contextWindowProfiles
      = providerProfiles (binding.provider? providers)
        ++ binding.contextWindowProfiles := by
  unfold resolveModelRouteBinding at h
  split at h
  · cases h
  · obtain ⟨found, hfound, h⟩ := bind_eq_ok.1 h
    obtain ⟨client, -, h⟩ := bind_eq_ok.1 h
    rw [orRaise_eq_ok] at hfound
    injection h with h
    injection h with hroute hresolved
    injection hroute with hroute
    injection hresolved with hresolved
    subst hroute hresolved
    rw [hbinding] at hfound
    injection hfound with hfound
    subst hfound
    rfl

-- ============== rivals

/-- How soon resolution asks for profiles of a kind. -/
def SelectorKind.stage : SelectorKind → Nat
  | .exact => 0
  | .pattern => 1
  | .providerDefault => 2

def namedFor (provider : Option String) (ref : String)
    (p : ModelContextWindowProfile) : Bool :=
  p.profileName == some ref && p.serves provider

/-- Two profiles are rivals: both are named by the reference; or, without
one, both cover the model in one way, and no profile does in a way that is
asked for before. -/
def Rivals (provider : Option String) (model : String) (ref : Option String)
    (profiles : List ModelContextWindowProfile)
    (q p : ModelContextWindowProfile) : Prop :=
  match ref with
  | some name =>
    namedFor provider name q = true ∧ namedFor provider name p = true
  | none =>
    q.selectorKind = p.selectorKind
      ∧ q.covers provider (some model) = true
      ∧ p.covers provider (some model) = true
      ∧ ∀ r ∈ profiles, r.covers provider (some model) = true →
        q.selectorKind.stage ≤ r.selectorKind.stage

instance (provider : Option String) (model : String) (ref : Option String)
    (profiles : List ModelContextWindowProfile)
    (q p : ModelContextWindowProfile) :
    Decidable (Rivals provider model ref profiles q p) :=
  match ref with
  | some _ => inferInstanceAs (Decidable (_ ∧ _))
  | none => inferInstanceAs (Decidable (_ ∧ _))

/-- Resolution raises no 'Ambiguous' error. -/
def Resolves (provider : Option String) (model : String)
    (ref : Option String) (profiles : List ModelContextWindowProfile) :
    Prop :=
  ∀ e, resolveContextWindowProfile provider (some model) profiles ref
    = .error e → e.isAmbiguous = false

theorem single_raises_iff {found : List ModelContextWindowProfile}
    {error : ResolutionError} :
    (∃ e, single found error = .error e)
      ↔ ¬ found.Pairwise fun _ _ => False := by
  rcases found with _ | ⟨a, _ | ⟨b, rest⟩⟩
  · simp [single]
  · simp [single]
  · refine iff_of_true ⟨error, rfl⟩ fun h => ?_
    exact (List.pairwise_cons.1 h).1 b (List.mem_cons_self ..)

variable {model : String} {profiles : List ModelContextWindowProfile}
  {provider ref : Option String}

theorem resolves_ref_iff {ref : String} :
    Resolves provider model (some ref) profiles
      ↔ profiles.Pairwise fun q p =>
        ¬ Rivals provider model (some ref) profiles q p := by
  have hraises : (∃ e, single (profiles.filter (namedFor provider ref))
        (.ambiguousRef provider ref) = .error e) ↔ _ := single_raises_iff
  rw [List.pairwise_filter] at hraises
  have hrivals : (profiles.Pairwise fun q p =>
        ¬ Rivals provider model (some ref) profiles q p)
      ↔ profiles.Pairwise fun q p => namedFor provider ref q = true →
        namedFor provider ref p = true → False := by
    simp only [Rivals, not_and, imp_false]
  rw [hrivals]
  by_cases hpair : profiles.Pairwise fun q p =>
      namedFor provider ref q = true → namedFor provider ref p = true → False
  · refine iff_of_true (fun e he => ?_) hpair
    rcases bind_eq_error.1 he with hsingle | ⟨found, -, he⟩
    · exact absurd hpair (hraises.1 ⟨e, hsingle⟩)
    · cases found with
      | some p => cases he
      | none =>
        cases he
        rfl
  · refine iff_of_false (fun hall => ?_) hpair
    obtain ⟨e, hsingle⟩ := hraises.2 hpair
    have hno := hall e (bind_eq_error.2 (Or.inl hsingle))
    rw [(single_eq_error hsingle).1] at hno
    cases hno

/-- Resolution by model raises where two profiles of one kind cover it, and
none of a kind that is asked for before. -/
theorem resolveByModel_raises_iff :
    (∃ e, resolveByModel provider (some model) profiles = .error e)
      ↔ ∃ kind, (¬ (coveringOf kind provider (some model) profiles).Pairwise
          fun _ _ => False)
        ∧ ∀ k : SelectorKind, k.stage < kind.stage →
          coveringOf k provider (some model) profiles = [] := by
  constructor
  · intro h
    obtain ⟨e, he⟩ := h
    rcases bind_eq_error.1 he with hexact | ⟨found, hexact, he⟩
    · refine ⟨.exact, single_raises_iff.1 ⟨e, hexact⟩, fun k hk => ?_⟩
      exact absurd hk (Nat.not_lt_zero _)
    · cases found with
      | some p => cases he
      | none =>
        have hnone := single_eq_none hexact
        rcases bind_eq_error.1 he with hpattern | ⟨found, hpattern, he⟩
        · refine ⟨.pattern, single_raises_iff.1 ⟨e, hpattern⟩, ?_⟩
          intro k hk
          cases k with
          | exact => exact hnone
          | _ => exact absurd hk (by decide)
        · cases found with
          | some p => cases he
          | none =>
            refine ⟨.providerDefault, single_raises_iff.1 ⟨e, he⟩, ?_⟩
            intro k hk
            cases k with
            | exact => exact hnone
            | pattern => exact single_eq_none hpattern
            | providerDefault => exact absurd hk (by decide)
  · intro h
    obtain ⟨kind, hseveral, hbefore⟩ := h
    cases kind with
    | exact =>
      obtain ⟨e, he⟩ := single_raises_iff.2 hseveral
      exact ⟨e, bind_eq_error.2 (Or.inl he)⟩
    | pattern =>
      obtain ⟨e, he⟩ := single_raises_iff.2 hseveral
      refine ⟨e, bind_eq_error.2 (Or.inr ⟨none, ?_, ?_⟩)⟩
      · rw [hbefore .exact (by decide)]
        rfl
      · exact bind_eq_error.2 (Or.inl he)
    | providerDefault =>
      obtain ⟨e, he⟩ := single_raises_iff.2 hseveral
      refine ⟨e, bind_eq_error.2 (Or.inr ⟨none, ?_, ?_⟩)⟩
      · rw [hbefore .exact (by decide)]
        rfl
      · refine bind_eq_error.2 (Or.inr ⟨none, ?_, he⟩)
        rw [hbefore .pattern (by decide)]
        rfl

theorem isAmbiguous_of_resolveByModel {model : Option String}
    {e : ResolutionError}
    (he : resolveByModel provider model profiles = .error e) :
    e.isAmbiguous = true := by
  rcases bind_eq_error.1 he with hexact | ⟨found, -, he⟩
  · rw [(single_eq_error hexact).1]
    rfl
  · cases found with
    | some p => cases he
    | none =>
      rcases bind_eq_error.1 he with hpattern | ⟨found, -, he⟩
      · rw [(single_eq_error hpattern).1]
        rfl
      · cases found with
        | some p => cases he
        | none =>
          rw [(single_eq_error he).1]
          rfl

theorem coveringOf_before_iff {kind : SelectorKind} :
    (∀ k : SelectorKind, k.stage < kind.stage →
        coveringOf k provider (some model) profiles = [])
      ↔ ∀ r ∈ profiles, r.covers provider (some model) = true →
        kind.stage ≤ r.selectorKind.stage := by
  constructor
  · intro h r hr hcovers
    by_contra hlt
    have hnil := h r.selectorKind (Nat.not_le.1 hlt)
    have hmem : r ∈ coveringOf r.selectorKind provider (some model)
        profiles :=
      List.mem_filter.2 ⟨hr, by simp [hcovers]⟩
    rw [hnil] at hmem
    cases hmem
  · intro h k hk
    refine List.filter_eq_nil_iff.2 fun r hr hkeep => ?_
    rw [Bool.and_eq_true, decide_eq_true_eq] at hkeep
    have hle := h r hr hkeep.1
    rw [hkeep.2] at hle
    exact absurd hk (Nat.not_lt.2 hle)

theorem resolves_model_iff :
    Resolves provider model none profiles
      ↔ profiles.Pairwise fun q p =>
        ¬ Rivals provider model none profiles q p := by
  have hraises : (∃ e, resolveByModel provider (some model) profiles
      = .error e) ↔ _ := resolveByModel_raises_iff
  constructor
  · intro h
    refine List.pairwise_iff_forall_sublist.2 fun {q p} hqp hrivals => ?_
    obtain ⟨hkind, hq, hp, hbefore⟩ := hrivals
    have hseveral : ¬ (coveringOf q.selectorKind provider (some model)
        profiles).Pairwise fun _ _ => False := by
      unfold coveringOf
      rw [List.pairwise_filter, List.pairwise_iff_forall_sublist]
      exact fun hlone => hlone hqp (by simp [hq]) (by simp [hp, hkind])
    obtain ⟨e, he⟩ := hraises.2
      ⟨q.selectorKind, hseveral, coveringOf_before_iff.2 hbefore⟩
    have hno := h e he
    rw [isAmbiguous_of_resolveByModel he] at hno
    cases hno
  · intro h e he
    obtain ⟨kind, hseveral, hbefore⟩ := hraises.1 ⟨e, he⟩
    refine absurd ?_ hseveral
    unfold coveringOf
    rw [List.pairwise_filter]
    refine h.imp fun {q p} hno hq hp => hno ?_
    rw [Bool.and_eq_true, decide_eq_true_eq] at hq hp
    obtain ⟨hq, rfl⟩ := hq
    exact ⟨hp.2.symm, hq, hp.1, coveringOf_before_iff.1 hbefore⟩

/-- Resolution is never ambiguous exactly where no two profiles are
rivals. -/
theorem resolves_iff :
    Resolves provider model ref profiles
      ↔ profiles.Pairwise fun q p =>
        ¬ Rivals provider model ref profiles q p := by
  cases ref with
  | none => exact resolves_model_iff
  | some ref => exact resolves_ref_iff

-- ======= the condition

/-- Two profiles of one list that its validation has compared in the way
resolution finds them: for providers in common, and two patterns as the
tokenizer reads them. -/
def ComparedFor (model : String) (ref : Option String)
    (q p : ModelContextWindowProfile) : Prop :=
  providerScopesOverlap p.providerName q.providerName = true
    ∧ (ref = none → p.selectorKind = .pattern → ∀ earlier selector,
      q.modelSelector = some earlier → p.modelSelector = some selector →
      readsAs model earlier = true ∧ readsAs model selector = true)

/-- No two profiles clash in resolution: not one of the provider and one of
the route, and two of one list only if its validation has compared them. -/
structure NoClash (provider : Option String) (model : String)
    (ref : Option String) (ofProvider ofRoute :
      List ModelContextWindowProfile) : Prop where
  across : ∀ q ∈ ofProvider, ∀ p ∈ ofRoute,
    ¬ Rivals provider model ref (ofProvider ++ ofRoute) q p
  inProvider : ofProvider.Pairwise fun q p =>
    Rivals provider model ref (ofProvider ++ ofRoute) q p →
      ComparedFor model ref q p
  inRoute : ofRoute.Pairwise fun q p =>
    Rivals provider model ref (ofProvider ++ ofRoute) q p →
      ComparedFor model ref q p

theorem reported_of_rivals {q p : ModelContextWindowProfile}
    (hrivals : Rivals provider model ref profiles q p)
    (hcompared : ComparedFor model ref q p) : diagnostics p q ≠ [] := by
  obtain ⟨hscopes, hreads⟩ := hcompared
  cases ref with
  | some name =>
    obtain ⟨hq, hp⟩ := hrivals
    unfold namedFor at hq hp
    rw [Bool.and_eq_true, beq_iff_eq] at hq hp
    exact reported_of_ref hscopes hq.1 hp.1
  | none =>
    obtain ⟨hkind, hq, hp, -⟩ := hrivals
    have hcovers : ∀ kind, p.selectorKind = kind →
        (q.covers provider (some model)
          && decide (q.selectorKind = kind)) = true
        ∧ (p.covers provider (some model)
          && decide (p.selectorKind = kind)) = true := by
      intro kind hk
      simp [hq, hp, hkind, hk]
    by_cases hpattern : p.selectorKind = .pattern
    · obtain ⟨hq', hp'⟩ := hcovers _ hpattern
      exact reported_of_readsAs hscopes hq' hp' (hreads rfl hpattern)
    · obtain ⟨hq', hp'⟩ := hcovers _ rfl
      exact reported_of_covers hscopes hpattern hq' hp'

theorem no_rivals_of_compared {all : List ModelContextWindowProfile}
    (hvalid : validateModelContextWindowProfiles profiles = [])
    (h : profiles.Pairwise fun q p =>
      Rivals provider model ref all q p → ComparedFor model ref q p) :
    profiles.Pairwise fun q p => ¬ Rivals provider model ref all q p := by
  refine ((validate_eq_nil hvalid).and h).imp fun {q p} hboth hrivals => ?_
  exact reported_of_rivals hrivals (hboth.2 hrivals) hboth.1

theorem validate_providerProfiles
    (provider : Option (ModelProviderBinding Client Capabilities)) :
    validateModelContextWindowProfiles (providerProfiles provider) = [] := by
  cases provider with
  | none => rfl
  | some provider => exact provider.validated

/-- The profiles of a resolved route are resolved without an 'Ambiguous'
error exactly when no two of them clash. -/
theorem resolvedRoute_resolves_iff {environ : String → Option String}
    {requested agent inherited fallback : Option String}
    {providers : Dict String (ModelProviderBinding Client Capabilities)}
    {routes : Dict String (ModelRouteBinding Client Capabilities)}
    {route : String} {binding : ModelRouteBinding Client Capabilities}
    {resolved : ResolvedModelRouteBinding Client Capabilities}
    (h : resolveModelRouteBinding environ requested agent inherited fallback
      providers routes = .ok (some route, some resolved))
    (hbinding : routes.get? route = some binding)
    (provider : Option String) (model : String) (ref : Option String) :
    Resolves provider model ref resolved.contextWindowProfiles
      ↔ NoClash provider model ref
        (providerProfiles (binding.provider? providers))
        binding.contextWindowProfiles := by
  rw [contextWindowProfiles_resolved h hbinding, resolves_iff,
    List.pairwise_append]
  constructor
  · intro hnone
    obtain ⟨hprovider, hroute, hacross⟩ := hnone
    exact ⟨hacross, hprovider.imp fun hno hrivals => absurd hrivals hno,
      hroute.imp fun hno hrivals => absurd hrivals hno⟩
  · intro hclash
    exact ⟨no_rivals_of_compared (validate_providerProfiles _)
        hclash.inProvider,
      no_rivals_of_compared binding.validated hclash.inRoute,
      hclash.across⟩

-- ======== two examples

def hostedProvider : ModelProviderBinding Unit Unit where
  client := ()
  providerName := "openai"
  capabilities := none
  contextWindowProfiles :=
    [⟨some "openai", some "gpt-4", some "wide"⟩, ⟨some "openai", none, none⟩]
  metadata := .empty
  validated := by decide

def hostedRoute (selector : String) : ModelRouteBinding Unit Unit where
  client := none
  defaultModel := some "gpt-4"
  providerName := none
  providerBinding := some "openai"
  contextWindowPolicy := none
  contextWindowProfiles := [⟨none, some selector, none⟩]
  metadata := .empty
  capabilities := none
  validated := rfl

/-- The routes with this one alone. -/
def hostedRoutes (selector : String) :
    Dict String (ModelRouteBinding Unit Unit) :=
  Dict.empty.insert "main" (hostedRoute selector)

def hostedResolved (selector : String) :
    Except RouteError (Option String
      × Option (ResolvedModelRouteBinding Unit Unit)) :=
  resolveModelRouteBinding (fun _ => none) (some "main") none none none
    (Dict.empty.insert "openai" hostedProvider) (hostedRoutes selector)

/-- With a profile for another model the route resolves. -/
theorem resolvedRoute_resolves_mini :
    ∃ resolved, hostedResolved "gpt-4-mini"
        = .ok (some "main", some resolved)
      ∧ Resolves (some "openai") "gpt-4" none
        resolved.contextWindowProfiles := by
  have hbinding : (hostedRoutes "gpt-4-mini").get? "main"
      = some (hostedRoute "gpt-4-mini") := rfl
  have hresolved : ∃ resolved, hostedResolved "gpt-4-mini"
      = .ok (some "main", some resolved) := ⟨_, rfl⟩
  obtain ⟨resolved, hresolved⟩ := hresolved
  refine ⟨resolved, hresolved,
    (resolvedRoute_resolves_iff hresolved hbinding _ _ _).2 ?_⟩
  refine ⟨by decide +kernel, ?_, List.pairwise_singleton _ _⟩
  have hnone : hostedProvider.contextWindowProfiles.Pairwise fun q p =>
      ¬ Rivals (some "openai") "gpt-4" none
        (hostedProvider.contextWindowProfiles
          ++ (hostedRoute "gpt-4-mini").contextWindowProfiles) q p := by
    decide +kernel
  exact hnone.imp fun hno hrivals => absurd hrivals hno

/-- The profile that is found for a model of the route, by the name of its
provider. -/
def hostedProfile (selector model : String) :
    Option (Except ResolutionError (Option ModelContextWindowProfile)) :=
  ((hostedResolved selector).toOption.bind (·.2)).map fun resolved =>
    resolveContextWindowProfile resolved.providerName (some model)
      resolved.contextWindowProfiles
      (resolved.contextWindowPolicy.bind (·.profileRef))

/-- Both bindings have an exact profile for the model, and validation has
compared neither with the other. -/
theorem hostedRoute_ambiguous :
    Printable "gpt-4"
      ∧ hostedProfile "gpt-4" "gpt-4"
        = some (.error (.ambiguous .exact (some "openai"))) := by
  have hprintable : ("gpt-4".toList.all fun c =>
      decide (c ∈ modelSelectorAlphabet)) = true := by decide +kernel
  refine ⟨fun c hc => ?_, by decide +kernel⟩
  exact of_decide_eq_true (List.all_eq_true.1 hprintable c hc)

end WeaveRuntime.ContextWindow
