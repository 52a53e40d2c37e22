/-
The hook bus: registrations and their activation states, the templates
it materialises into sessions, and the dispatch loop.

A registration id is the creation index the bus assigns together with
`uuid4().hex`: all the code asks of the id is that no two registrations
share it.

# What is atomic

A dispatch selects its records first and then awaits the handlers one
after another. Between two awaits nothing else runs, so one step takes a
dispatch from a handler to the next handler it calls, or to its end,
where the once hooks it ran expire. While it is suspended any other
operation of the bus, other dispatches included, may run; a handler may
end with effects, be blocked (it raised, or timed out), or have its task
cancelled under it.

What a dispatch returns to its caller is no state of the bus and is left
to the module of the turn's hooks.
-/
import WeaveRuntime.Hooks.Platform
import WeaveRuntime.Lib.Dict
import WeaveRuntime.Lib.System
import WeaveRuntime.Python.Fnmatch
import WeaveRuntime.Python.Value
import Mathlib.Data.List.Dedup
import Mathlib.Data.List.Sort
import Mathlib.Data.String.Basic

namespace WeaveRuntime.Hooks

open Lib
open Python

-- ============= records

structure RegistrationRecord where
  registrationId : Nat
  sourceKind : HookSourceKind
  sourceRef : String
  owner : String
  phase : String
  sessionId : Option String
  turnId : Option String
  scope : HookRegistrationScope
  matcher : String
  handlerManifest : HookHandlerManifest
  contract : HookEffectContract
  once : Bool
  activationState : HookActivationState
  precedence : List Nat
  localOrder : Nat
  activationTurnId : Option String := none
  parentRegistrationId : Option Nat := none
  rejectionReason : Option String := none
  descendantIds : List Nat := []
  deriving DecidableEq

def RegistrationRecord.active (r : RegistrationRecord) : Bool :=
  r.activationState == .active

structure HookBus where
  records : Dict Nat RegistrationRecord := Dict.empty
  sessionOrder : Dict String (List Nat) := Dict.empty
  templateOrder : List Nat := []
  materializedTemplates : Dict String (List Nat) := Dict.empty
  callbackBindings : List String := []
  externalHandlerPolicy : Dict (Option String × HookHandlerKind) Bool :=
    Dict.empty
  creationCounter : Nat := 0
  dispatchCounter : Nat := 0
  sessionPrecedenceEpochs : Dict String Nat := Dict.empty

namespace HookBus

def order (bus : HookBus) (sessionId : String) : List Nat :=
  (bus.sessionOrder.get? sessionId).getD []

/-- `_materialized_templates.setdefault(session_id, set())`. -/
def materialized (bus : HookBus) (sessionId : String) : List Nat :=
  (bus.materializedTemplates.get? sessionId).getD []

def bindCallback (bus : HookBus) (name : String) : HookBus :=
  { bus with callbackBindings := bus.callbackBindings ++ [name] }

def setHandlerPolicy (bus : HookBus) (kind : HookHandlerKind)
    (allowed : Bool) (phase : Option String) : HookBus :=
  { bus with
    externalHandlerPolicy :=
      bus.externalHandlerPolicy.insert (phase, kind) allowed }

def handlerAllowed (bus : HookBus) (kind : HookHandlerKind)
    (phase : String) : Bool :=
  if kind = .callback then true
  else ((bus.externalHandlerPolicy.get? (some phase, kind)).or
    (bus.externalHandlerPolicy.get? (none, kind))).getD false

def nextEpoch (bus : HookBus) (sessionId : String) : Nat :=
  (bus.sessionPrecedenceEpochs.get? sessionId).getD 0 + 1

/-- Store a record under its id and append the id to its session. -/
def addToSession (bus : HookBus) (sessionId : String)
    (r : RegistrationRecord) : HookBus :=
  { bus with
    records := bus.records.insert r.registrationId r
    sessionOrder := bus.sessionOrder.insert sessionId
      (bus.order sessionId ++ [r.registrationId])
    sessionPrecedenceEpochs := bus.sessionPrecedenceEpochs.insert sessionId
      (bus.nextEpoch sessionId) }

-- ======== registration

def callbackRejection (bus : HookBus) (manifest : HookHandlerManifest)
    (requireBound : Bool) : Option String :=
  if manifest.kind ≠ .callback then none
  else if manifest.staticEffect || manifest.callback then none
  else match manifest.binding with
    | none => some "callback_handler_missing_target"
    | some name =>
      if requireBound && !bus.callbackBindings.contains name then
        some "unresolved_callback_binding"
      else none

end HookBus

/-- `left or right` of two optional strings. -/
def orString (left right : Option String) : Option String :=
  match left with
  | some text => if text = "" then right else some text
  | none => right

def resolveScope (scope : HookRegistrationScope)
    (sessionId turnId : Option String)
    (defaultLifetime : HookScopeLifetime) : HookRegistrationScope :=
  let resolvedSessionId := orString scope.sessionId sessionId
  match scope.lifetime with
  | .turn => { scope with
      turnId := orString scope.turnId turnId
      sessionId := resolvedSessionId }
  | .session =>
    if resolvedSessionId = none ∧ defaultLifetime = .sessionTemplate then
      { scope with
        lifetime := .sessionTemplate, turnId := none, sessionId := none }
    else { scope with turnId := none, sessionId := resolvedSessionId }
  | .sessionTemplate => { scope with turnId := none, sessionId := none }

/-- What the surface a request comes through fixes for it. -/
structure RegistrationSurface where
  sourceKind : HookSourceKind
  owner : Option String := none
  sourceRef : Option String := none
  sessionId : Option String := none
  turnId : Option String := none
  defaultScopeLifetime : HookScopeLifetime := .session
  allowedPhaseContracts : List String :=
    publicPhaseContracts.map HookPhaseContract.phase
  allowTurnScope : Bool := true
  localOrder : Nat := 0

/-- The texts a request asks for and its phase does not allow, sorted and
joined. -/
def unsupported (requested allowed : List String) : Option String :=
  match ((requested.filter fun text => !allowed.contains text).dedup
      ).insertionSort (· ≤ ·) with
  | [] => none
  | text :: texts => some (",".intercalate (text :: texts))

def validateRequest (bus : HookBus) (request : HookRegistrationRequest)
    (surface : RegistrationSurface) (scope : HookRegistrationScope) :
    Option String :=
  let contract := phaseContractFor request.phase
  if !isPublicPhase request.phase then some "phase_not_public"
  else if !surface.allowedPhaseContracts.contains request.phase then
    if isAdvancedPhase request.phase then
      some "advanced_phase_requires_advanced_surface"
    else some "phase_not_allowed_for_surface"
  else if scope.lifetime = .turn ∧ scope.turnId = none then
    some "invalid_turn_scope"
  else if scope.lifetime = .turn ∧ !surface.allowTurnScope then
    some "turn_scope_requires_advanced_surface"
  else if scope.lifetime = .session ∧ scope.sessionId = none then
    some "invalid_session_scope"
  else if request.handler.kind.external
      && !contract.externalHandlerAllowed then
    some "external_handler_not_allowed_for_phase"
  else match bus.callbackRejection request.handler
      (scope.lifetime != .sessionTemplate) with
    | some reason => some reason
    | none =>
      match unsupported
          (request.contract.effectClasses.map HookEffectClass.value)
          (contract.effectClasses.map HookEffectClass.value) with
      | some texts => some ("unsupported_effect_classes:" ++ texts)
      | none =>
        match unsupported request.contract.effectFields
            contract.effectFields with
        | some texts => some ("unsupported_effect_fields:" ++ texts)
        | none =>
          if (surface.sourceKind = .runtimeConfig
              ∨ surface.sourceKind = .hostApi)
              ∧ scope.lifetime = .turn then
            some "template_scope_cannot_be_turn"
          else none

namespace HookBus

/-- The record `register_request` makes, but for where it is ordered. -/
def newRecord (bus : HookBus) (request : HookRegistrationRequest)
    (surface : RegistrationSurface) (scope : HookRegistrationScope)
    (generatedOwner : String) : RegistrationRecord :=
  let owner := (orString request.ownerHint surface.owner).getD generatedOwner
  { registrationId := bus.creationCounter + 1
    sourceKind := surface.sourceKind
    sourceRef := (orString request.sourceRef surface.sourceRef).getD owner
    owner := owner
    phase := request.phase
    sessionId := orString surface.sessionId scope.sessionId
    turnId := scope.turnId
    scope := scope
    matcher := request.target
    handlerManifest := request.handler
    contract := request.contract
    once := request.once
    activationState := .active
    precedence := [surface.sourceKind.precedence, bus.creationCounter + 1,
      surface.localOrder, bus.creationCounter + 1]
    localOrder := surface.localOrder
    activationTurnId := surface.turnId }

/-- `register_request`, and the state of the handle it returns: `none`
where the session of a turn hook is missing and the assertion fails. -/
def registerRequest (bus : HookBus) (request : HookRegistrationRequest)
    (surface : RegistrationSurface) (generatedOwner : String) :
    HookBus × Option HookActivationState :=
  let scope := resolveScope request.scope surface.sessionId surface.turnId
    surface.defaultScopeLifetime
  let r := bus.newRecord request surface scope generatedOwner
  let counted := { bus with creationCounter := bus.creationCounter + 1 }
  match validateRequest bus request surface scope with
  | some reason =>
    ({ counted with
        records := bus.records.insert r.registrationId
          { r with
            sessionId := surface.sessionId, activationState := .rejected
            rejectionReason := some reason } },
      some .rejected)
  | none =>
    if scope.lifetime = .sessionTemplate then
      ({ counted with
          records := bus.records.insert r.registrationId
            { r with activationState := .pendingActivation }
          templateOrder := bus.templateOrder ++ [r.registrationId] },
        some .pendingActivation)
    else match orString surface.sessionId scope.sessionId with
      | none => (counted, none)
      | some sessionId =>
        (counted.addToSession sessionId
          { r with
            precedence := [surface.sourceKind.precedence,
              bus.nextEpoch sessionId, surface.localOrder,
              bus.creationCounter + 1] },
          some .active)

-- ===== materialisation

def descendant (bus : HookBus) (sessionId : String)
    (template : RegistrationRecord) : RegistrationRecord :=
  { template with
    registrationId := bus.creationCounter + 1
    sessionId := some sessionId
    turnId := none
    scope := { template.scope with
      lifetime := .session, turnId := none, sessionId := some sessionId }
    activationState := .active
    precedence := [template.sourceKind.precedence, bus.nextEpoch sessionId,
      template.localOrder, bus.creationCounter + 1]
    activationTurnId := none
    parentRegistrationId := some template.registrationId
    rejectionReason := none
    descendantIds := [] }

/-- Whether the handler of a template can be resolved. -/
def bound (bus : HookBus) (template : RegistrationRecord) : Bool :=
  (bus.callbackRejection template.handlerManifest true).isNone

def materializeTemplate (bus : HookBus) (sessionId : String)
    (templateId : Nat) : HookBus :=
  if templateId ∈ bus.materialized sessionId then bus
  else match bus.records.get? templateId with
    | none => bus
    | some template =>
      if template.activationState ≠ .pendingActivation then bus
      else if !bus.bound template then bus
      else
        let r := bus.descendant sessionId template
        let added := { bus with
          creationCounter := bus.creationCounter + 1 }.addToSession
            sessionId r
        { added with
          records := added.records.insert templateId
            { template with
              descendantIds :=
                template.descendantIds ++ [r.registrationId] }
          materializedTemplates := bus.materializedTemplates.insert
            sessionId (bus.materialized sessionId ++ [templateId]) }

def materializeSession (bus : HookBus) (sessionId : String) : HookBus :=
  bus.templateOrder.foldl (fun b id => b.materializeTemplate sessionId id)
    bus

-- ============= release

/-- Give the records of a list that are ACTIVE and pass a test another
state. -/
def deactivate (test : RegistrationRecord → Bool)
    (state : HookActivationState) (bus : HookBus) : List Nat → HookBus
  | [] => bus
  | id :: ids =>
    match bus.records.get? id with
    | none => deactivate test state bus ids
    | some r =>
      if r.active && test r then
        deactivate test state { bus with
          records := bus.records.insert id
            { r with activationState := state } } ids
      else deactivate test state bus ids

def releaseRegistration (bus : HookBus) (id : Nat) : HookBus :=
  match bus.records.get? id with
  | none => bus
  | some r =>
    match r.activationState with
    | .released | .expired | .rejected => bus
    | .pendingActivation | .active =>
      deactivate (fun _ => true) .released { bus with
        records := bus.records.insert id
          { r with activationState := .released } } r.descendantIds

def releaseOwner (bus : HookBus) (sessionId owner : String) : HookBus :=
  deactivate (fun r => r.owner = owner) .released bus (bus.order sessionId)

def clearSession (bus : HookBus) (sessionId : String) : HookBus :=
  deactivate (fun _ => true) .expired bus (bus.order sessionId)

def releaseTurn (bus : HookBus) (sessionId : String)
    (turnId : Option String) : HookBus :=
  match turnId with
  | none => bus
  | some _ =>
    deactivate (fun r => r.scope.lifetime = .turn && r.turnId = turnId)
      .expired bus (bus.order sessionId)

end HookBus

-- ============ dispatch

/-- The fields of a payload the bus looks at. -/
structure HookPayload where
  phase : String
  turnId : Option String := none
  toolName : Option String := none
  agentName : Option String := none
  kind : Option String := none
  reason : Option String := none
  finalStatus : Option String := none
  prompt : Option String := none
  message : Option String := none
  candidateAction : Option String := none

def HookPayload.matchTarget (p : HookPayload) : Option String :=
  [p.toolName, p.agentName, p.kind, p.reason, p.finalStatus, p.prompt,
    p.message, p.candidateAction].findSome? id

/-- The fields of a dispatch context the bus looks at. -/
structure DispatchContext where
  turnId : Option String := none
  parentTurnId : Option String := none
  parentRunId : Option String := none

def DispatchContext.childExecution (context : DispatchContext) : Bool :=
  (coerceOptional context.parentTurnId).isSome
    || (coerceOptional context.parentRunId).isSome

/-- The turn a dispatch counts as part of. -/
def effectiveTurnId (payload : HookPayload) (context : DispatchContext) :
    Option String :=
  (coerceOptional payload.turnId).or (coerceOptional context.turnId)

def matcherMatches (matcher : String) (target : Option String) : Bool :=
  if matcher = "*" then true
  else match target with
    | none => false
    | some text =>
      if matcher.toList.any fun c => "*?[]".toList.contains c then
        fnmatch text matcher
      else matcher = text

namespace RegistrationRecord

def turnScopeMatches (r : RegistrationRecord) (turnId : Option String) :
    Bool :=
  if r.scope.lifetime ≠ .turn then true else r.turnId = turnId

def visibilityMatches (r : RegistrationRecord) (turnId : Option String)
    (context : DispatchContext) : Bool :=
  if !context.childExecution then true
  else if r.scope.inheritToChildren then true
  else r.activationTurnId.isSome && r.activationTurnId = turnId

/-- The tests of a dispatch, before the matcher's. -/
def selected (r : RegistrationRecord) (payload : HookPayload)
    (context : DispatchContext) : Bool :=
  r.active && r.phase = payload.phase
    && r.turnScopeMatches (effectiveTurnId payload context)
    && r.visibilityMatches (effectiveTurnId payload context) context

end RegistrationRecord

namespace HookBus

def activeRecords (bus : HookBus) (sessionId : String)
    (payload : HookPayload) (context : DispatchContext) :
    List RegistrationRecord :=
  (((bus.order sessionId).filterMap bus.records.get?).filter
    fun r => r.selected payload context).insertionSort
      fun a b => a.precedence ≤ b.precedence

/-- Whether `_invoke_record` calls the handler of a record. -/
def permits (bus : HookBus) (r : RegistrationRecord) : Bool :=
  !(r.handlerManifest.kind.external
    && (!(phaseContractFor r.phase).externalHandlerAllowed
      || !bus.handlerAllowed r.handlerManifest.kind r.phase))

/-- The next record of a dispatch whose handler is called, with those
after it. -/
def nextHandler (bus : HookBus) (target : Option String) :
    List Nat → Option (Nat × List Nat)
  | [] => none
  | id :: ids =>
    match bus.records.get? id with
    | none => bus.nextHandler target ids
    | some r =>
      if matcherMatches r.matcher target && bus.permits r then
        some (id, ids)
      else bus.nextHandler target ids

end HookBus

/-- A dispatch suspended at a handler. -/
structure DispatchCall where
  target : Option String
  running : Nat
  ahead : List Nat
  onceToExpire : List Nat

/-- How the handler a dispatch awaits ends: it returns, `_invoke_record`
gives a reason why it is blocked, or the task of the dispatch is
cancelled. -/
inductive HandlerOutcome where
  | returned | blocked | cancelled
  deriving DecidableEq, Repr

/-- The bus, the dispatches suspended on it, and the handler calls so far
by the registration they were made for, oldest first. -/
structure HookState where
  bus : HookBus := {}
  dispatches : Dict Nat DispatchCall := Dict.empty
  invoked : List Nat := []

namespace HookState

/-- Go on to the next handler, or end the dispatch. -/
def proceed (s : HookState) (call : Nat) (target : Option String)
    (onceToExpire ids : List Nat) : HookState :=
  match s.bus.nextHandler target ids with
  | some (id, rest) =>
    { s with
      dispatches := s.dispatches.insert call
        ⟨target, id, rest, onceToExpire⟩
      invoked := s.invoked ++ [id] }
  | none =>
    { s with
      bus := HookBus.deactivate (fun _ => true) .expired { s.bus with
        dispatchCounter := s.bus.dispatchCounter + 1 } onceToExpire
      dispatches := s.dispatches.erase call }

/-- `dispatch`, up to the first handler it calls. -/
def dispatch (s : HookState) (call : Nat) (sessionId : String)
    (payload : HookPayload) (context : DispatchContext) : HookState :=
  let bus := s.bus.materializeSession sessionId
  proceed { s with bus := bus } call payload.matchTarget []
    ((bus.activeRecords sessionId payload context).map
      RegistrationRecord.registrationId)

def handlerEnds (s : HookState) (call : Nat) (d : DispatchCall)
    (outcome : HandlerOutcome) : HookState :=
  match outcome with
  | .cancelled => { s with dispatches := s.dispatches.erase call }
  | .blocked => s.proceed call d.target d.onceToExpire d.ahead
  | .returned =>
    let once := ((s.bus.records.get? d.running).map
      RegistrationRecord.once).getD false
    s.proceed call d.target
      (if once then d.onceToExpire ++ [d.running] else d.onceToExpire)
      d.ahead

end HookState

-- =============== steps

inductive HookAction where
  | register (request : HookRegistrationRequest)
      (surface : RegistrationSurface) (generatedOwner : String)
  | bindCallback (name : String)
  | setHandlerPolicy (kind : HookHandlerKind) (allowed : Bool)
      (phase : Option String)
  | materializeSession (sessionId : String)
  | releaseRegistration (id : Nat)
  | releaseOwner (sessionId owner : String)
  | clearSession (sessionId : String)
  | releaseTurn (sessionId : String) (turnId : Option String)
  | dispatch (call : Nat) (sessionId : String) (payload : HookPayload)
      (context : DispatchContext)
  | handlerEnds (call : Nat) (outcome : HandlerOutcome)

/-- One operation of the bus, or one leg of a dispatch. A dispatch is
named by a number no suspended dispatch has. -/
def hookStep (s : HookState) : HookAction → Option HookState
  | .register request surface generatedOwner =>
    some { s with
      bus := (s.bus.registerRequest request surface generatedOwner).1 }
  | .bindCallback name => some { s with bus := s.bus.bindCallback name }
  | .setHandlerPolicy kind allowed phase =>
    some { s with bus := s.bus.setHandlerPolicy kind allowed phase }
  | .materializeSession sessionId =>
    some { s with bus := s.bus.materializeSession sessionId }
  | .releaseRegistration id =>
    some { s with bus := s.bus.releaseRegistration id }
  | .releaseOwner sessionId owner =>
    some { s with bus := s.bus.releaseOwner sessionId owner }
  | .clearSession sessionId =>
    some { s with bus := s.bus.clearSession sessionId }
  | .releaseTurn sessionId turnId =>
    some { s with bus := s.bus.releaseTurn sessionId turnId }
  | .dispatch call sessionId payload context =>
    if s.dispatches.contains call then none
    else some (s.dispatch call sessionId payload context)
  | .handlerEnds call outcome =>
    (s.dispatches.get? call).map fun d => s.handlerEnds call d outcome

def hookSystem : System HookState HookAction := ⟨hookStep⟩

end WeaveRuntime.Hooks
