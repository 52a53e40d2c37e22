/-
The vocabulary of the hook platform: kinds and lifetimes, what a phase
allows a hook to do, and the request a registration is made from.

Of a handler manifest only what decides whether and where it may run is
kept: its kind, the name it is bound by, and whether it carries its own
callable or a static effect. What a handler does when it runs is the
environment's.
-/
import Mathlib.Data.List.Basic

namespace WeaveRuntime.Hooks

-- =============== kinds

inductive HookPhaseTier where
  | kernelPublic | controlPlanePublic | internalOnly
  deriving DecidableEq, Repr

inductive HookSupportLevel where
  | stablePublic | advanced | internal
  deriving DecidableEq, Repr

inductive HookEffectClass where
  | observe | transform | decide | sidecar
  deriving DecidableEq, Repr

def HookEffectClass.value : HookEffectClass → String
  | .observe => "observe"
  | .transform => "transform"
  | .decide => "decide"
  | .sidecar => "sidecar"

inductive HookHandlerKind where
  | callback | http | command | agent | prompt
  deriving DecidableEq, Repr

def HookHandlerKind.external (kind : HookHandlerKind) : Bool :=
  kind != .callback

inductive HookSourceKind where
  | runtimeConfig | hostApi | definition | sessionApi | turnApi | compat
  deriving DecidableEq, Repr

def HookSourceKind.precedence : HookSourceKind → Nat
  | .runtimeConfig => 0
  | .hostApi => 1
  | .definition => 2
  | .sessionApi => 3
  | .turnApi => 4
  | .compat => 3

inductive HookScopeLifetime where
  | sessionTemplate | session | turn
  deriving DecidableEq, Repr

inductive HookActivationState where
  | pendingActivation | active | released | expired | rejected
  deriving DecidableEq, Repr

-- ============ requests

structure HookRegistrationScope where
  lifetime : HookScopeLifetime
  inheritToChildren : Bool := false
  turnId : Option String := none
  sessionId : Option String := none
  cleanupBoundary : Option String := none
  deriving DecidableEq, Repr

structure HookEffectContract where
  effectClasses : List HookEffectClass := []
  effectFields : List String := []
  deriving DecidableEq, Repr

structure HookHandlerManifest where
  kind : HookHandlerKind
  binding : Option String := none
  callback : Bool := false
  staticEffect : Bool := false
  deriving DecidableEq, Repr

structure HookRegistrationRequest where
  phase : String
  target : String := "*"
  scope : HookRegistrationScope := { lifetime := .session }
  handler : HookHandlerManifest := { kind := .callback }
  contract : HookEffectContract := {}
  ownerHint : Option String := none
  sourceRef : Option String := none
  once : Bool := false
  deriving DecidableEq, Repr

-- ===== phase contracts

structure HookPhaseContract where
  phase : String
  tier : HookPhaseTier
  supportLevel : HookSupportLevel
  effectClasses : List HookEffectClass
  effectFields : List String
  externalHandlerAllowed : Bool := false
  deriving DecidableEq, Repr

/-- A stable phase that may only look on. -/
private def observing (phase : String) (supportLevel : HookSupportLevel)
    (effectFields : List String) : HookPhaseContract where
  phase := phase
  tier := .kernelPublic
  supportLevel := supportLevel
  effectClasses := [.observe, .sidecar]
  effectFields := effectFields

def publicPhaseContracts : List HookPhaseContract :=
  [ observing "SessionStart" .stablePublic
      ["additional_context", "notifications", "metadata"],
    { phase := "UserPromptSubmit", tier := .kernelPublic
      supportLevel := .advanced
      effectClasses := [.observe, .transform, .sidecar]
      effectFields := ["additional_context", "notifications", "metadata"] },
    { phase := "PreToolUse", tier := .kernelPublic
      supportLevel := .stablePublic
      effectClasses := [.observe, .transform, .decide, .sidecar]
      effectFields := ["updated_input", "continue_execution",
        "notifications", "metadata"]
      externalHandlerAllowed := true },
    { phase := "PostToolUse", tier := .kernelPublic
      supportLevel := .stablePublic
      effectClasses := [.observe, .decide, .sidecar]
      effectFields := ["continue_execution", "notifications", "metadata"]
      externalHandlerAllowed := true },
    observing "PostToolUseFailure" .stablePublic
      ["notifications", "metadata"],
    { phase := "Stop", tier := .kernelPublic
      supportLevel := .stablePublic
      effectClasses := [.observe, .transform, .decide, .sidecar]
      effectFields := ["additional_context", "continue_execution",
        "stop_disposition", "notifications", "injected_messages",
        "request_override", "metadata"]
      externalHandlerAllowed := true },
    observing "SubagentStop" .advanced ["notifications", "metadata"],
    observing "SessionEnd" .stablePublic ["notifications", "metadata"],
    observing "Notification" .stablePublic ["notifications", "metadata"],
    { phase := "Elicitation", tier := .kernelPublic
      supportLevel := .stablePublic
      effectClasses := [.observe, .decide, .sidecar]
      effectFields := ["elicitation_result", "notifications", "metadata"]
      externalHandlerAllowed := true },
    observing "ElicitationResult" .stablePublic
      ["notifications", "metadata"],
    observing "PreCompact" .advanced ["notifications", "metadata"],
    observing "PostCompact" .advanced ["notifications", "metadata"],
    { phase := "PreContextAssemble", tier := .controlPlanePublic
      supportLevel := .advanced
      effectClasses := [.observe, .transform, .sidecar]
      effectFields := ["additional_context", "notifications", "metadata"] },
    { phase := "PostContextAssemble", tier := .controlPlanePublic
      supportLevel := .advanced
      effectClasses := [.observe, .transform, .sidecar]
      effectFields := ["additional_context", "request_override",
        "notifications", "metadata"]
      externalHandlerAllowed := true },
    { phase := "PreModelRequest", tier := .controlPlanePublic
      supportLevel := .stablePublic
      effectClasses := [.observe, .transform, .decide, .sidecar]
      effectFields := ["continue_execution", "request_override",
        "notifications", "metadata"]
      externalHandlerAllowed := true },
    { phase := "PostModelResponse", tier := .controlPlanePublic
      supportLevel := .stablePublic
      effectClasses := [.observe, .transform, .sidecar]
      effectFields := ["request_override", "injected_messages",
        "notifications", "metadata"]
      externalHandlerAllowed := true },
    { phase := "RecoveryDecision", tier := .controlPlanePublic
      supportLevel := .advanced
      effectClasses := [.observe, .transform, .decide, .sidecar]
      effectFields := ["continue_execution", "request_override",
        "injected_messages", "metadata"]
      externalHandlerAllowed := true } ]

/-- `phase_contract_for`: an unknown phase is internal and allows
nothing. -/
def phaseContractFor (phase : String) : HookPhaseContract :=
  (publicPhaseContracts.find? fun c => c.phase = phase).getD
    { phase := phase, tier := .internalOnly, supportLevel := .internal
      effectClasses := [], effectFields := [] }

def isPublicPhase (phase : String) : Bool :=
  (phaseContractFor phase).tier != .internalOnly

def isAdvancedPhase (phase : String) : Bool :=
  (phaseContractFor phase).supportLevel == .advanced

end WeaveRuntime.Hooks
