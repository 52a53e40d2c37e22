/-
How a run ended, as five places tell it: the terminal itself, the
projection of its failure, the observability of the workflow, the agent
run, and the helper that closes a session.

The views read reason, error, abort reason and metadata each in its own
way. For the terminals of a turn they agree exactly where a reason that
counts as completed comes without any other sign of trouble, and every
other reason comes with a sign that the helper looks at. The status hint
follows from the reason (`Hinted`), in every run.
-/
import WeaveRuntime.TurnEngine.Budget
import Mathlib.Tactic.TFAE

namespace WeaveRuntime.TurnEngine

open Lib Python
open Jobs (Fields getField)

-- ==== model: the views

namespace TurnTerminal

def stopReason (t : TurnTerminal) : String := t.reason.value

def completed (t : TurnTerminal) : Bool :=
  t.reason = .endTurn ∨ t.reason = .messageStop

def failureClass (t : TurnTerminal) : Option String :=
  coerceOptionalString (getField t.metadata "failure_class")

structure FailureProjection where
  stopReason : Option String
  error : Option String
  abortReason : Option String
  failureClass : Option String
  requestId : Option String
  providerStopReason : Option String
  metadata : Fields

def isTerminalFailure (stopReason error abortReason failureClass :
    Option String) : Bool :=
  if failureClass.isSome ∧ failureClass ≠ some "none" then true
  else if error.isSome ∨ abortReason.isSome then true
  else
    match stopReason with
    | none => false
    | some text => text ∉ ["", "completed", "end_turn", "message_stop"]

/-- `terminal_failure`, without the observability of the source. -/
def terminalFailure (t : TurnTerminal) : Option FailureProjection :=
  let stopReason := coerceOptional (some t.stopReason)
  let error := (coerceOptional t.error).or
    (coerceOptionalString (getField t.metadata "error"))
  let abortReason := (coerceOptional t.abortReason).or
    (coerceOptionalString (getField t.metadata "abort_reason"))
  if isTerminalFailure stopReason error abortReason t.failureClass then
    some
      { stopReason := stopReason, error := error, abortReason := abortReason
        failureClass := t.failureClass
        requestId := coerceOptional t.requestId
        providerStopReason := coerceOptional t.providerStopReason
        metadata := t.metadata }
  else none

inductive LifecycleStatus where
  | completed | maxTurns | blocked | interrupted | failed
deriving DecidableEq

inductive WorkflowOutcome where
  | succeeded | degraded | blocked | interrupted | failed
deriving DecidableEq

structure Diagnostic where
  code : String
  advisory : Bool := false
  message : String
  details : Fields

/-- `_status_outcome_and_diagnostics_from_terminal`. -/
def statusOutcome (t : TurnTerminal) :
    LifecycleStatus × WorkflowOutcome × List Diagnostic :=
  let stopReason := (coerceOptional (some t.stopReason)).getD ""
  let error := coerceOptional t.error
  let abortReason := coerceOptional t.abortReason
  let details := Jobs.updateFields [(.str "stop_reason", .str stopReason)]
    t.metadata
  if stopReason ∈ ["completed", "end_turn", "message_stop"] ∧ error = none
      ∧ abortReason = none
      ∧ (t.failureClass = none ∨ t.failureClass = some "none") then
    (.completed, .succeeded, [])
  else if stopReason = "max_turns" then
    (.maxTurns, .degraded,
      [{ code := "workflow_max_turns_reached", advisory := true
         message := "Workflow reached its configured max-turn limit."
         details := details }])
  else if stopReason = "blocked"
      ∨ (getField t.metadata "continuation_blocked").truthy then
    (.blocked, .blocked,
      [{ code := "workflow_blocked"
         message := (error.or abortReason).getD "Workflow execution blocked."
         details := details }])
  else if stopReason = "interrupted" ∨ abortReason.isSome then
    (.interrupted, .interrupted,
      [{ code := "workflow_interrupted"
         message := (abortReason.or error).getD
           "Workflow execution interrupted."
         details := details }])
  else
    (.failed, .failed,
      [{ code := t.failureClass.getD "workflow_failed"
         message := (error.or abortReason).getD "Workflow execution failed."
         details := details }])

/-- An unhashable value was looked up in a set. -/
inductive Raised where
  | typeError
deriving DecidableEq

/-- `failure_class not in {None, "", "none"}`. -/
def namesFailure : PyVal → Except Raised Bool
  | .none => .ok false
  | .str text => .ok (decide (text ≠ "" ∧ text ≠ "none"))
  | .list _ | .dict _ => .error .typeError
  | _ => .ok true

inductive AgentRunStatus where
  | completed | maxTurns | failed
deriving DecidableEq

/-- `_agent_run_status_from_turn_result` of the result the terminal was
folded into: it has the terminal's stop reason and post effects. -/
def agentRunStatus (t : TurnTerminal) : Except Raised AgentRunStatus :=
  if t.stopReason = "max_turns" then .ok .maxTurns
  else if t.completed then .ok .completed
  else do
    if ← namesFailure (getField t.metadata "failure_class") then
      return .failed
    if t.postEffects.sessionStatusHint = "interrupted" then return .failed
    if t.stopReason = "end_turn" ∨ t.stopReason = "message_stop" then
      return .completed
    if t.stopReason = "max_turns" then return .maxTurns
    return .failed

/-- The end of `_managed_session_close_status`: what the status of the
session says. -/
def closeStatusOfSession (status : Option String) : String :=
  let normalized := (status.getD "").toList
  if "INTERRUPTED".toList <:+ normalized
      ∨ "interrupted".toList <:+ normalized then "interrupted"
  else if "FAILED".toList <:+ normalized
      ∨ "failed".toList <:+ normalized then "failed"
  else if "STOPPED".toList <:+ normalized
      ∨ "stopped".toList <:+ normalized then "stopped"
  else "completed"

/-- A text that is given and not empty. -/
def given (text : Option String) : Bool := text.getD "" ≠ ""

/-- `_managed_session_close_status` with a terminal. -/
def closeStatus (t : TurnTerminal) (status : Option String) :
    Except Raised String :=
  if given t.error then .ok "failed"
  else if given t.abortReason then .ok "interrupted"
  else if t.postEffects.sessionStatusHint = "waiting" then .ok "stopped"
  else if t.postEffects.sessionStatusHint = "interrupted" then
    .ok "interrupted"
  else do
    if ← namesFailure (getField t.metadata "failure_class") then
      return "failed"
    if (getField t.metadata "continuation_blocked").truthy then
      return "stopped"
    if t.stopReason = "interrupted" then return "interrupted"
    if t.stopReason = "blocked" then return "stopped"
    return closeStatusOfSession status

-- ===== when they agree

/-- The five views agree on whether the run completed. -/
def ViewsAgree (t : TurnTerminal) (status : Option String) : Prop :=
  [t.completed = true, t.terminalFailure = none,
    t.statusOutcome.2.1 = .succeeded, t.agentRunStatus = .ok .completed,
    t.closeStatus status = .ok "completed"].TFAE

/-- No sign of trouble beside the reason, that closing looks at. -/
structure Silent (t : TurnTerminal) (status : Option String) : Prop where
  error : given t.error = false
  abortReason : given t.abortReason = false
  failureClass : namesFailure (getField t.metadata "failure_class")
    = .ok false
  unblocked : (getField t.metadata "continuation_blocked").truthy = false
  session : closeStatusOfSession status = "completed"

/-- A completed reason without a sign of trouble, in the metadata either;
any other reason with one. -/
def Uncontradicted (t : TurnTerminal) (status : Option String) : Prop :=
  if t.completed then
    t.Silent status
      ∧ coerceOptionalString (getField t.metadata "error") = none
      ∧ coerceOptionalString (getField t.metadata "abort_reason") = none
  else t.reason = .blocked ∨ t.reason = .interrupted ∨ ¬ t.Silent status

/-- The status hint is the one of the reason. -/
def Hinted (t : TurnTerminal) : Prop :=
  t.postEffects.sessionStatusHint
    = (turnPostEffects t.reason []).sessionStatusHint

-- =========== each view

variable {t : TurnTerminal} {status : Option String}

theorem coerceOptional_value (r : TurnTerminalReason) :
    coerceOptional (some r.value) = some r.value := by
  cases r <;> decide

theorem coerceOptional_of_not_given {text : Option String}
    (h : given text = false) : coerceOptional text = none := by
  cases text with
  | none => rfl
  | some s =>
    obtain rfl : s = "" := by simpa [given] using h
    decide

theorem failureClass_of_unnamed
    (h : namesFailure (getField t.metadata "failure_class") = .ok false) :
    t.failureClass = none ∨ t.failureClass = some "none" := by
  unfold failureClass
  cases hv : getField t.metadata "failure_class" with
  | none => exact .inl rfl
  | str s =>
    rw [hv] at h
    have hs : s = "" ∨ s = "none" := by
      simpa [namesFailure, or_iff_not_imp_left] using h
    obtain rfl | rfl := hs
    · exact .inl (by decide)
    · exact .inr (by decide)
  | _ => rw [hv] at h; cases h

theorem completed_iff :
    t.completed = true
      ↔ t.stopReason ∈ ["completed", "end_turn", "message_stop"] := by
  unfold completed stopReason
  cases t.reason <;> decide

theorem isTerminalFailure_eq_false_iff
    {stopReason error abortReason failureClass : Option String} :
    isTerminalFailure stopReason error abortReason failureClass = false
      ↔ (failureClass = none ∨ failureClass = some "none")
        ∧ error = none ∧ abortReason = none
        ∧ ∀ text ∈ stopReason,
          text ∈ ["", "completed", "end_turn", "message_stop"] := by
  unfold isTerminalFailure
  cases failureClass with
  | some c =>
    by_cases hc : c = "none" <;> cases error <;> cases abortReason
      <;> cases stopReason <;> simp [hc, or_iff_not_imp_left]
  | none =>
    cases error <;> cases abortReason <;> cases stopReason
      <;> simp [or_iff_not_imp_left]

theorem terminalFailure_eq_none_iff :
    t.terminalFailure = none
      ↔ (t.failureClass = none ∨ t.failureClass = some "none")
        ∧ (coerceOptional t.error = none
          ∧ coerceOptionalString (getField t.metadata "error") = none)
        ∧ (coerceOptional t.abortReason = none
          ∧ coerceOptionalString (getField t.metadata "abort_reason") = none)
        ∧ t.completed = true := by
  have hreason : (∀ text ∈ coerceOptional (some t.stopReason),
      text ∈ ["", "completed", "end_turn", "message_stop"])
        ↔ t.completed = true := by
    rw [show coerceOptional (some t.stopReason) = some t.stopReason
      from coerceOptional_value t.reason]
    unfold completed stopReason
    cases t.reason <;> decide
  rw [← hreason, ← Option.or_eq_none_iff, ← Option.or_eq_none_iff,
    ← isTerminalFailure_eq_false_iff]
  unfold terminalFailure
  dsimp only
  split
  · next h => simp [h]
  · next h => simpa using h

theorem succeeded_iff :
    t.statusOutcome.2.1 = .succeeded
      ↔ t.completed = true ∧ coerceOptional t.error = none
        ∧ coerceOptional t.abortReason = none
        ∧ (t.failureClass = none ∨ t.failureClass = some "none") := by
  rw [completed_iff]
  unfold statusOutcome
  rw [show coerceOptional (some t.stopReason) = some t.stopReason
    from coerceOptional_value t.reason]
  dsimp only [Option.getD_some]
  split
  · next h => exact iff_of_true rfl h
  · next h =>
    refine iff_of_false ?_ h
    intro hout
    split at hout
    · cases hout
    split at hout
    · cases hout
    split at hout <;> cases hout

theorem agentRunStatus_completed_iff :
    t.agentRunStatus = .ok .completed ↔ t.completed = true := by
  have hreason : t.completed = true → t.stopReason ≠ "max_turns" := by
    unfold completed stopReason
    cases t.reason <;> decide
  have hends : t.completed = false →
      ¬ (t.stopReason = "end_turn" ∨ t.stopReason = "message_stop") := by
    unfold completed stopReason
    cases t.reason <;> decide
  unfold agentRunStatus
  cases hc : t.completed with
  | true => simp [hreason hc]
  | false =>
    refine iff_of_false ?_ (by decide)
    split
    · decide
    rw [if_neg (by decide)]
    intro h
    obtain ⟨b, -, h⟩ := bind_eq_ok.1 h
    cases b with
    | true => cases h
    | false =>
      simp only [Bool.false_eq_true, if_false, hends hc] at h
      split at h <;> cases h

theorem Hinted.waiting_iff (h : t.Hinted) :
    t.postEffects.sessionStatusHint = "waiting" ↔ t.reason = .blocked := by
  rw [h]
  cases t.reason <;> decide

theorem Hinted.interrupted_iff (h : t.Hinted) :
    t.postEffects.sessionStatusHint = "interrupted"
      ↔ t.reason = .interrupted := by
  rw [h]
  cases t.reason <;> decide

theorem stopReason_iff (r : TurnTerminalReason) :
    t.stopReason = r.value ↔ t.reason = r := by
  unfold stopReason
  cases t.reason <;> cases r <;> decide

/-- Closing calls a hinted terminal completed where nothing speaks against
it. -/
theorem closeStatus_completed_iff (h : t.Hinted) :
    t.closeStatus status = .ok "completed"
      ↔ t.Silent status ∧ t.reason ≠ .blocked ∧ t.reason ≠ .interrupted := by
  have hblocked : t.stopReason = "blocked" ↔ _ := stopReason_iff .blocked
  have hinterrupted : t.stopReason = "interrupted" ↔ _ :=
    stopReason_iff .interrupted
  unfold closeStatus
  constructor
  · intro hclose
    split at hclose
    · simp at hclose
    next he =>
    split at hclose
    · simp at hclose
    next ha =>
    split at hclose
    · simp at hclose
    next hb =>
    split at hclose
    · simp at hclose
    next hi =>
    rw [h.waiting_iff] at hb
    rw [h.interrupted_iff] at hi
    obtain ⟨named, hnamed, hclose⟩ := bind_eq_ok.1 hclose
    cases named with
    | true => simp [pure, Except.pure] at hclose
    | false =>
      simp only [Bool.false_eq_true, if_false, hinterrupted, hblocked, hb,
        hi] at hclose
      split at hclose
      · simp [pure, Except.pure] at hclose
      next hc =>
      exact ⟨⟨by simpa using he, by simpa using ha, hnamed,
        by simpa using hc, by simpa [pure, Except.pure] using hclose⟩,
        hb, hi⟩
  · rintro ⟨hs, hb, hi⟩
    rw [hs.error, hs.abortReason, hs.failureClass,
      if_neg (h.waiting_iff.not.2 hb),
      if_neg (h.interrupted_iff.not.2 hi)]
    show (if (getField t.metadata "continuation_blocked").truthy then _
      else _) = _
    rw [hs.unblocked, if_neg (by decide), if_neg (hinterrupted.not.2 hi),
      if_neg (hblocked.not.2 hb), hs.session]
    rfl

/-- The views of a hinted terminal agree exactly where its reason and the
rest of it do. -/
theorem viewsAgree_iff (h : t.Hinted) :
    t.ViewsAgree status ↔ t.Uncontradicted status := by
  have hclose : t.closeStatus status = .ok "completed" ↔ _ :=
    closeStatus_completed_iff h
  unfold ViewsAgree Uncontradicted
  simp only [List.tfae_cons_cons, List.tfae_singleton, and_true]
  rw [terminalFailure_eq_none_iff, succeeded_iff,
    agentRunStatus_completed_iff, hclose]
  cases hc : t.completed with
  | false =>
    simp only [Bool.false_eq_true, and_false, false_and, false_iff,
      true_and, if_false]
    tauto
  | true =>
    have hreason : t.reason ≠ .blocked ∧ t.reason ≠ .interrupted := by
      revert hc
      unfold completed
      cases t.reason <;> decide
    rw [if_pos rfl]
    constructor
    · rintro ⟨hfailure, -, -, hsilent⟩
      obtain ⟨-, herror, habort, -⟩ := hfailure.1 rfl
      exact ⟨(hsilent.1 rfl).1, herror.2, habort.2⟩
    · rintro ⟨hs, herror, habort⟩
      have hclass := failureClass_of_unnamed hs.failureClass
      have he := coerceOptional_of_not_given hs.error
      have ha := coerceOptional_of_not_given hs.abortReason
      exact ⟨iff_of_true rfl ⟨hclass, ⟨he, herror⟩, ⟨ha, habort⟩, rfl⟩,
        iff_of_true ⟨hclass, ⟨he, herror⟩, ⟨ha, habort⟩, rfl⟩
          ⟨rfl, he, ha, hclass⟩,
        iff_of_true ⟨rfl, he, ha, hclass⟩ rfl,
        iff_of_true rfl ⟨hs, hreason⟩⟩

end TurnTerminal

-- ==== the terminals of a run

variable {B W M Q : Type}

/-- The terminal, where there is one, has the hint of its reason. -/
def TurnRun.WellHinted (s : TurnRun B W M Q) : Prop :=
  ∀ t ∈ s.loop.terminal, t.Hinted

abbrev KeepsHints (s t : TurnRun B W M Q) : Prop :=
  s.WellHinted → t.WellHinted

theorem keepsHints_of_eq {s t : TurnRun B W M Q}
    (h : t.loop.terminal = s.loop.terminal) : KeepsHints s t := by
  intro hs
  unfold TurnRun.WellHinted
  rw [h]
  exact hs

theorem keepsHints_frame :
    Frame (KeepsHints : TurnRun B W M Q → TurnRun B W M Q → Prop) where
  trans _ _ _ h h' := h' ∘ h
  untouched _ _ h := keepsHints_of_eq h.terminal
  commit _ _ := keepsHints_of_eq rfl

theorem keepsHints_compacts :
    Frame.Compacts (KeepsHints : TurnRun B W M Q → _ → Prop) where
  replace _ _ := keepsHints_of_eq rfl
  event _ _ := keepsHints_of_eq rfl

namespace TurnRun

variable (hooks : Hooks B M Q) (env : Collaborators W M Q)
  (policy : RecoveryPolicy) (limit : Nat)

theorem finish_hinted {terminal : TurnTerminal} (h : terminal.Hinted) :
    (finish terminal : TurnM B W M Q Unit).Evolves KeepsHints := by
  refine Method.evolves_write fun s _ t ht => ?_
  cases ht
  exact h

theorem haltTerminal_hinted (l : TurnLoopState W M Q) (settled : Settled M)
    (input : NormalizedRecoveryInput) (decision : RecoveryDecision M)
    (owners : List String) (blocked : Fields) :
    (haltTerminal l settled input decision owners blocked).Hinted := by
  show (turnPostEffects _ owners).sessionStatusHint = _
  unfold haltTerminal turnTerminalFromAttempt turnPostEffects
  cases turnTerminalReason decision <;> rfl

theorem halt_hinted (settled : Settled M) (input : NormalizedRecoveryInput)
    (decision : RecoveryDecision M) (owners : List String)
    (blocked : Fields) :
    (do
      let terminal ← get fun l =>
        haltTerminal l settled input decision owners blocked
      finish terminal : TurnM B W M Q Unit).Evolves KeepsHints :=
  fun s => finish_hinted
    (haltTerminal_hinted s.loop settled input decision owners blocked) s

theorem keepsHints_write {f : TurnLoopState W M Q → TurnLoopState W M Q}
    (hf : ∀ l, (f l).terminal = l.terminal) :
    (modify f : TurnM B W M Q Unit).Evolves KeepsHints :=
  Method.evolves_write fun s => keepsHints_of_eq (hf s.loop)

theorem conclude_hinted (settled : Settled M)
    (input : NormalizedRecoveryInput) (owners : List String)
    (decision : RecoveryDecision M) :
    (conclude settled input owners decision
      : TurnM B W M Q Unit).Evolves KeepsHints := by
  refine keepsHints_frame.bind (keepsHints_write fun _ => rfl) fun _ => ?_
  split
  · exact halt_hinted settled input decision owners _
  · exact keepsHints_frame.goOn decision

theorem haltUnanswered_hinted (settled : Settled M) (unavailable : Bool) :
    (haltUnanswered env policy settled unavailable
      : TurnM B W M Q Unit).Evolves KeepsHints := by
  have h := keepsHints_frame (B := B) (W := W) (M := M) (Q := Q)
  refine h.bind (h.get _) fun input => h.bind (h.get _) fun decision => ?_
  refine h.bind (keepsHints_write fun _ => rfl) fun _ => ?_
  exact halt_hinted settled input decision [] _

theorem replayTools_hinted (settled : Settled M) :
    (replayTools hooks env policy limit settled).Evolves KeepsHints := by
  have h := keepsHints_frame (B := B) (W := W) (M := M) (Q := Q)
  refine h.bind (h.asking hooks _) fun replay => ?_
  refine h.bind (keepsHints_write fun l => ?_) fun _ => ?_
  · unfold applySkillOverride
    cases replay.requestOverride <;> rfl
  refine h.bind (h.get _) fun input => h.bind (h.get _) fun decision => ?_
  refine h.bind (keepsHints_write fun _ => rfl) fun _ => ?_
  refine h.bind (h.committed _) fun _ => ?_
  split
  · exact halt_hinted settled input decision [] []
  · exact h.goOn decision

theorem iterate_hinted :
    (iterate hooks env policy limit).Evolves KeepsHints := by
  have h := keepsHints_frame (B := B) (W := W) (M := M) (Q := Q)
  refine h.bind ?_ fun settled => ?_
  · refine h.bind (keepsHints_write fun _ => rfl) fun _ => ?_
    refine h.bind (h.buildRequest keepsHints_compacts hooks env) fun _ => ?_
    refine h.bind (keepsHints_write fun _ => rfl) fun _ => ?_
    exact h.finishAttempt hooks env _ _ _ fun _ =>
      keepsHints_write fun _ => rfl
  · unfold afterAttempt
    split
    · refine h.bind ?_ fun p => conclude_hinted settled p.input _ _
      refine h.bind (h.dispatch hooks _) fun _ => ?_
      refine h.bind (h.get _) fun _ => h.bind (h.get _) fun _ => ?_
      refine h.bind (h.get _) fun _ => ?_
      exact h.bind (h.dispatch hooks _) fun _ => h.pure _
    · refine h.bind (h.get _) fun reason => ?_
      split
      · exact haltUnanswered_hinted env policy settled false
      split
      · exact haltUnanswered_hinted env policy settled true
      · exact replayTools_hinted hooks env policy limit settled

theorem step_hinted (s : TurnRun B W M Q) :
    KeepsHints s (step hooks env policy limit s) := by
  intro hs
  have hiter := iterate_hinted hooks env policy limit s hs
  unfold step
  split
  · exact hs
  unfold Method.tryExcept
  dsimp only
  cases hrun : (iterate hooks env policy limit).run s with
  | mk r t =>
    rw [hrun] at hiter
    cases r with
    | ok u => exact hiter
    | error e =>
      have hfailed : (errorTerminal t.loop.lastAttempt e).Hinted := rfl
      exact finish_hinted hfailed t hiter

theorem after_hinted {s : TurnRun B W M Q} (hs : s.loop.terminal = none)
    (n : Nat) : (after hooks env policy limit n s).WellHinted := by
  induction n with
  | zero =>
    intro t ht
    rw [show after hooks env policy limit 0 s = s from rfl, hs] at ht
    cases ht
  | succ n ih => exact step_hinted hooks env policy limit _ ih

end TurnRun

/-- In every run of the turn the views of its terminal agree exactly where
the terminal does not contradict its reason. -/
theorem views_agree_iff (hooks : Hooks B M Q) (env : Collaborators W M Q)
    (policy : RecoveryPolicy) (limit n : Nat) {s : TurnRun B W M Q}
    (hs : s.loop.terminal = none) {t : TurnTerminal}
    (ht : (TurnRun.after hooks env policy limit n s).loop.terminal = some t)
    (status : Option String) :
    t.ViewsAgree status ↔ t.Uncontradicted status :=
  TurnTerminal.viewsAgree_iff
    (TurnRun.after_hinted hooks env policy limit hs n t ht)

namespace TurnRun

/-- A model that stops for this reason. -/
def stopping (reason : String) : Collaborators Unit Unit Unit :=
  { idle with
    attempt := fun _ w =>
      .done (.ok { terminal := { stopReason := some reason } }, w) }

/-- The terminal its turn ends with. -/
def stopped (reason : String) : TurnTerminal :=
  (after unhooked (stopping reason) {} 8 1 started).loop.terminal.getD
    (errorTerminal none "")

end TurnRun

open TurnRun

theorem views_agree_end_turn : (stopped "end_turn").ViewsAgree none := by
  refine (views_agree_iff unhooked (stopping "end_turn") {} 8 1
    (s := started) rfl (t := stopped "end_turn") rfl none).2 ?_
  unfold TurnTerminal.Uncontradicted
  rw [if_pos (by decide +kernel)]
  exact ⟨⟨by decide +kernel, by decide +kernel, by decide +kernel,
    by decide +kernel, by decide +kernel⟩, by decide +kernel,
    by decide +kernel⟩

/-- A stop reason that is none of the turn's ends it in an error without a
text; the session is closed as completed all the same. -/
theorem stop_sequence_disagrees :
    (after unhooked (stopping "stop_sequence") {} 8 1 started).loop.terminal
        = some (stopped "stop_sequence")
      ∧ ¬ (stopped "stop_sequence").ViewsAgree none := by
  refine ⟨rfl, fun h => ?_⟩
  have hclosed : (stopped "stop_sequence").closeStatus none
      = .ok "completed" := by decide +kernel
  have hcompleted : (stopped "stop_sequence").completed = true :=
    (h.out 0 4).2 hclosed
  revert hcompleted
  decide +kernel

end WeaveRuntime.TurnEngine
