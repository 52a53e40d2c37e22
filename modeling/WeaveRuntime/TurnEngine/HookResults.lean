/-
What a dispatch of the hook bus gives back to its caller.

The bus collects the effects of the registrations that matched, in
precedence order, and aggregates them field by field. A handler that
returned nothing adds no effect, and one that raised or timed out adds
none either, but its registration has matched all the same: its owner is
in `matchedOwners` (`result_of_quiet`).

Effects are taken as `_sanitize_effect` leaves them: the fields a phase
does not allow are cut. Notifications go to the host, input updates and
elicitation answers to the tools; they are no data of the turn loop and
the summary of winners is for audits.
-/
import WeaveRuntime.TurnEngine.Overrides

namespace WeaveRuntime.TurnEngine

open Lib Python
open Jobs (Fields updateFields)

variable {M : Type}

inductive StopDisposition where
  | haltFailure | blockSession | continueSameTurn | allowTerminal
  deriving DecidableEq, Repr

/-- The precedence of `_aggregate_stop_disposition`. -/
def StopDisposition.rank : StopDisposition → Nat
  | .allowTerminal => 0
  | .continueSameTurn => 1
  | .blockSession => 2
  | .haltFailure => 3

structure HookEffect (M : Type) where
  additionalContext : List String := []
  continueExecution : Bool := true
  stopDisposition : Option StopDisposition := none
  injectedMessages : List M := []
  requestOverride : Option RequestOverrideState := none
  metadata : Fields := []

/-- How the handler of a registration ended: with effects (none of them
where it returned `None`), or blocked. -/
inductive HandlerOutcome (M : Type) where
  | returned (effects : List (HookEffect M))
  | blocked (reason : String)

structure HookMatch (M : Type) where
  owner : String
  outcome : HandlerOutcome M

def HookMatch.effects (call : HookMatch M) : List (HookEffect M) :=
  match call.outcome with
  | .returned effects => effects
  | .blocked _ => []

/-- The handler returned `None`, or failed under the isolating policy. -/
def HookMatch.quiet (call : HookMatch M) : Bool := call.effects.isEmpty

structure HookDispatchResult (M : Type) where
  dispatchId : Nat := 0
  matchedOwners : List String := []
  additionalContext : List String := []
  continueExecution : Bool := true
  stopDisposition : StopDisposition := .allowTerminal
  injectedMessages : List M := []
  requestOverride : Option RequestOverrideState := none
  metadata : Fields := []

def aggregateStopDisposition (values : List StopDisposition) :
    StopDisposition :=
  values.foldl
    (fun winner value => if winner.rank < value.rank then value else winner)
    .allowTerminal

/-- The disposition of one effect. At `Stop` an effect that blocks
execution and names no disposition blocks the session. -/
def HookEffect.disposition (atStop : Bool) (effect : HookEffect M) :
    Option StopDisposition :=
  match effect.stopDisposition with
  | some value => some value
  | none =>
    if atStop && !effect.continueExecution then some .blockSession else none

/-- `continue_execution` of the result: at `Stop` the disposition decides. -/
def aggregateContinue (atStop : Bool) (effects : List (HookEffect M)) : Bool :=
  if atStop then
    match aggregateStopDisposition
        (effects.filterMap (HookEffect.disposition atStop)) with
    | .blockSession | .haltFailure => false
    | _ => true
  else effects.all HookEffect.continueExecution

def dispatchResult (atStop : Bool) (dispatchId : Nat)
    (calls : List (HookMatch M)) : HookDispatchResult M :=
  let effects := calls.flatMap HookMatch.effects
  { dispatchId := dispatchId
    matchedOwners := calls.map HookMatch.owner
    additionalContext := effects.flatMap HookEffect.additionalContext
    continueExecution := aggregateContinue atStop effects
    stopDisposition := aggregateStopDisposition
      (effects.filterMap (HookEffect.disposition atStop))
    injectedMessages := effects.flatMap HookEffect.injectedMessages
    requestOverride := effects.foldl
      (fun acc effect => RequestOverrideState.merge acc effect.requestOverride)
      none
    metadata := effects.foldl
      (fun acc effect => updateFields acc effect.metadata) [] }

def quietResult (dispatchId : Nat) (owners : List String) :
    HookDispatchResult M :=
  { dispatchId := dispatchId, matchedOwners := owners }

theorem result_of_quiet {calls : List (HookMatch M)}
    (h : ∀ call ∈ calls, call.quiet = true) (atStop : Bool)
    (dispatchId : Nat) :
    dispatchResult atStop dispatchId calls
      = quietResult dispatchId (calls.map HookMatch.owner) := by
  have hnone : calls.flatMap HookMatch.effects = [] := by
    apply List.flatMap_eq_nil_iff.2
    intro call hcall
    exact List.isEmpty_iff.1 (h call hcall)
  unfold dispatchResult quietResult
  rw [hnone]
  cases atStop <;> rfl

end WeaveRuntime.TurnEngine
