/-
The retries of a turn are paid for.

A recovery state is threaded through the attempts of a turn: each attempt
is evaluated, its decision is counted, and the pending override may be
cleared at any point. `remaining` is what the policy's ceilings leave of
the counters, over the four classes that are retried.

# The measure

A decision to go on after a failure is made of a class whose counter is
under its ceiling (`admitsRetry_spec`), and counts that class up, so
`remaining` drops by one (`remaining_retried`). No other decision lets it
grow (`remaining_afterDecision`): counters only go up. A run that starts
from no counters can go on after `remaining` failures at most, which is
the budget (`recovery_bounded`).
-/
import WeaveRuntime.TurnEngine.Recovery

namespace WeaveRuntime.TurnEngine

open Lib

variable {M : Type}

-- ============ the runs

/-- What happens to a recovery state. `continuation` is the message of
`_recovery_continuation_message`. -/
inductive RecoveryEvent (M : Type) where
  | attempt (input : NormalizedRecoveryInput)
      (stop : Option (StopPhaseOutcome M)) (prepared : PreparedSummary)
      (continuation : M)
  | clearPendingOverride

/-- The decisions of a run, each with the attempt it is made of. -/
def decisions (policy : RecoveryPolicy) : RecoveryState →
    List (RecoveryEvent M) →
    List (NormalizedRecoveryInput × RecoveryDecision M)
  | _, [] => []
  | s, .attempt input stop prepared continuation :: events =>
    let decision := policy.evaluate continuation s input stop prepared
    (input, decision) :: decisions policy (s.afterDecision input decision)
      events
  | s, .clearPendingOverride :: events =>
    decisions policy s.clearPendingOverride events

/-- A failure after which the turn goes on. -/
def retried (e : NormalizedRecoveryInput × RecoveryDecision M) : Bool :=
  e.1.terminalFailure && decide (e.2.action ≠ .halt)

-- ========= the measure

/-- What all the ceilings allow together. -/
def RecoveryPolicy.budget (policy : RecoveryPolicy) : Nat :=
  2 * policy.maxCompactionAttempts + policy.maxOutputLimitRetries
    + policy.maxProviderOverloadRetries

/-- What the ceilings leave of the counters. -/
def RecoveryPolicy.remaining (policy : RecoveryPolicy) (s : RecoveryState) :
    Nat :=
  (policy.maxCompactionAttempts - s.compactionAttemptCount .contextLimit)
    + (policy.maxCompactionAttempts - s.compactionAttemptCount .mediaLimit)
    + (policy.maxOutputLimitRetries - s.retryCount .outputLimit)
    + (policy.maxProviderOverloadRetries - s.retryCount .providerOverload)

theorem remaining_le_budget (policy : RecoveryPolicy) (s : RecoveryState) :
    policy.remaining s ≤ policy.budget := by
  unfold RecoveryPolicy.remaining RecoveryPolicy.budget
  omega

@[simp] theorem remaining_clearPendingOverride (policy : RecoveryPolicy)
    (s : RecoveryState) :
    policy.remaining s.clearPendingOverride = policy.remaining s := rfl

-- ======== the counters

section Counters

variable {s : RecoveryState} {input : NormalizedRecoveryInput}
  {decision : RecoveryDecision M}

theorem countOf_ite (p : Prop) [Decidable p]
    (counters : Dict FailureClassification Nat)
    (c c' : FailureClassification) :
    countOf (if p then countUp counters c else counters) c'
      = countOf counters c' + if p ∧ c' = c then 1 else 0 := by
  by_cases hp : p
  · rw [if_pos hp, countOf_countUp]
    simp only [hp, true_and]
  · have hnot : ¬ (p ∧ c' = c) := fun h => hp h.1
    rw [if_neg hp, if_neg hnot, Nat.add_zero]

theorem retryCount_afterDecision (c : FailureClassification) :
    (s.afterDecision input decision).retryCount c
      = s.retryCount c
        + if ((input.failureClass ≠ .none ∧ decision.action ≠ .halt)
            ∧ decision.action ≠ .compactAndRetry) ∧ c = input.failureClass
          then 1 else 0 :=
  countOf_ite _ _ _ _

theorem compactionAttemptCount_afterDecision (c : FailureClassification) :
    (s.afterDecision input decision).compactionAttemptCount c
      = s.compactionAttemptCount c
        + if ((input.failureClass ≠ .none ∧ decision.action ≠ .halt)
            ∧ decision.action = .compactAndRetry) ∧ c = input.failureClass
          then 1 else 0 :=
  countOf_ite _ _ _ _

theorem remaining_afterDecision (policy : RecoveryPolicy) :
    policy.remaining (s.afterDecision input decision)
      ≤ policy.remaining s := by
  unfold RecoveryPolicy.remaining
  rw [compactionAttemptCount_afterDecision .contextLimit,
    compactionAttemptCount_afterDecision .mediaLimit,
    retryCount_afterDecision .outputLimit,
    retryCount_afterDecision .providerOverload]
  omega

end Counters

-- ========= the retries

section Retries

variable {policy : RecoveryPolicy} {s : RecoveryState}
  {input : NormalizedRecoveryInput} {action : RecoveryAction}

/-- A retry is admitted under a ceiling that is not reached. -/
theorem admitsRetry_spec {c : FailureClassification}
    (h : policy.admitsRetry s c = some action) :
    (action = .compactAndRetry ∧ (c = .contextLimit ∨ c = .mediaLimit)
        ∧ s.compactionAttemptCount c < policy.maxCompactionAttempts)
      ∨ (action = .retryWithOverride ∧ c = .outputLimit
        ∧ s.retryCount .outputLimit < policy.maxOutputLimitRetries)
      ∨ (action = .rebuildRequest ∧ c = .providerOverload
        ∧ s.retryCount .providerOverload
          < policy.maxProviderOverloadRetries) := by
  unfold RecoveryPolicy.admitsRetry at h
  cases c with
  | contextLimit =>
    dsimp only at h
    split at h
    · next hlt =>
      cases h
      exact Or.inl ⟨rfl, Or.inl rfl, hlt⟩
    · cases h
  | mediaLimit =>
    dsimp only at h
    split at h
    · next hlt =>
      cases h
      exact Or.inl ⟨rfl, Or.inr rfl, hlt⟩
    · cases h
  | outputLimit =>
    dsimp only at h
    split at h
    · next hlt =>
      cases h
      exact Or.inr (Or.inl ⟨rfl, rfl, hlt⟩)
    · cases h
  | providerOverload =>
    dsimp only at h
    split at h
    · next hlt =>
      cases h
      exact Or.inr (Or.inr ⟨rfl, rfl, hlt⟩)
    · cases h
  | _ => cases h

theorem evaluateFailure_admits {continuation : M}
    (h : (policy.evaluateFailure continuation s input).action ≠ .halt) :
    policy.admitsRetry s input.failureClass
      = some (policy.evaluateFailure continuation s input).action := by
  unfold RecoveryPolicy.evaluateFailure at h ⊢
  cases hretry : input.retryable with
  | false =>
    rw [hretry] at h
    exact absurd rfl h
  | true =>
    rw [hretry] at h
    simp only [if_true] at h ⊢
    cases hadmitted : policy.admitsRetry s input.failureClass with
    | none =>
      rw [hadmitted] at h
      exact absurd rfl h
    | some a => cases a <;> rfl

/-- `evaluate` of a failure that is gone on after. -/
theorem evaluate_admits {continuation : M}
    {stop : Option (StopPhaseOutcome M)} {prepared : PreparedSummary}
    (hfail : input.terminalFailure = true)
    (h : (policy.evaluate continuation s input stop prepared).action
      ≠ .halt) :
    policy.admitsRetry s input.failureClass
      = some (policy.evaluate continuation s input stop prepared).action := by
  unfold RecoveryPolicy.evaluate at h ⊢
  rw [RecoveryDecision.postInit_action] at h ⊢
  by_cases hturns : input.maxTurnsExhausted = true
  · rw [if_pos hturns] at h
    exact absurd rfl h
  rw [if_neg hturns] at h ⊢
  by_cases hinterrupted : input.interrupted = true
  · rw [if_pos hinterrupted] at h
    exact absurd rfl h
  rw [if_neg hinterrupted] at h ⊢
  by_cases htools : input.toolExecutorUnavailable = true
  · rw [if_pos htools] at h
    exact absurd rfl h
  rw [if_neg htools, if_pos hfail] at h ⊢
  exact evaluateFailure_admits h

theorem remaining_retried {decision : RecoveryDecision M}
    (hadmitted : policy.admitsRetry s input.failureClass
      = some decision.action) :
    policy.remaining (s.afterDecision input decision) + 1
      ≤ policy.remaining s := by
  unfold RecoveryPolicy.remaining
  rw [compactionAttemptCount_afterDecision .contextLimit,
    compactionAttemptCount_afterDecision .mediaLimit,
    retryCount_afterDecision .outputLimit,
    retryCount_afterDecision .providerOverload]
  rcases admitsRetry_spec hadmitted with
    ⟨haction, hclass | hclass, hlt⟩ | ⟨haction, hclass, hlt⟩
      | ⟨haction, hclass, hlt⟩
  · rw [hclass] at hlt
    simp only [haction, hclass]
    simp
    omega
  · rw [hclass] at hlt
    simp only [haction, hclass]
    simp
    omega
  · simp only [haction, hclass]
    simp
    omega
  · simp only [haction, hclass]
    simp
    omega

end Retries

-- =========== the bound

theorem countP_retried_le (policy : RecoveryPolicy) (s : RecoveryState)
    (events : List (RecoveryEvent M)) :
    (decisions policy s events).countP retried ≤ policy.remaining s := by
  induction events generalizing s with
  | nil => exact Nat.zero_le _
  | cons event events ih =>
    cases event with
    | clearPendingOverride => exact ih s.clearPendingOverride
    | attempt input stop prepared continuation =>
      let decision := policy.evaluate continuation s input stop prepared
      have hrest := ih (s.afterDecision input decision)
      show ((input, decision) :: decisions policy
        (s.afterDecision input decision) events).countP retried ≤ _
      rw [List.countP_cons]
      by_cases hretried : retried (input, decision) = true
      · obtain ⟨hfail, hgoes⟩ := Bool.and_eq_true_iff.1 hretried
        have hdrop := remaining_retried
          (evaluate_admits hfail (of_decide_eq_true hgoes))
        rw [if_pos hretried]
        exact Nat.le_trans (Nat.add_le_add_right hrest 1) hdrop
      · rw [if_neg hretried]
        exact Nat.le_trans hrest (remaining_afterDecision policy)

/-- A turn goes on after no more failures than the ceilings allow, and a
turn whose attempts keep failing is halted. -/
theorem recovery_bounded (policy : RecoveryPolicy)
    (events : List (RecoveryEvent M)) :
    (decisions policy {} events).countP retried
        ≤ 2 * policy.maxCompactionAttempts + policy.maxOutputLimitRetries
          + policy.maxProviderOverloadRetries
      ∧ ((∀ e ∈ decisions policy {} events, e.1.terminalFailure = true) →
        policy.budget < (decisions policy {} events).length →
        ∃ e ∈ decisions policy {} events, e.2.action = .halt) := by
  have hbound : (decisions policy {} events).countP retried ≤ policy.budget :=
    Nat.le_trans (countP_retried_le policy {} events)
      (remaining_le_budget policy {})
  refine ⟨hbound, fun hfail hlong => ?_⟩
  by_contra hnone
  have hall : (decisions policy {} events).countP retried
      = (decisions policy {} events).length := by
    rw [List.countP_eq_length]
    intro e he
    have hgoes : e.2.action ≠ .halt := fun h => hnone ⟨e, he, h⟩
    exact Bool.and_eq_true_iff.2 ⟨hfail e he, decide_eq_true hgoes⟩
  omega

def overloadedAttempts : List (RecoveryEvent Unit) :=
  List.replicate 5
    (.attempt { failureClass := .providerOverload, retryable := true } none {}
      ())

theorem recovery_bounded_overloaded :
    (decisions {} {} overloadedAttempts).map (fun e => e.2.action)
        = [.rebuildRequest, .halt, .halt, .halt, .halt]
      ∧ ∃ e ∈ decisions {} {} overloadedAttempts, e.2.action = .halt :=
  ⟨by decide +kernel,
    (recovery_bounded {} overloadedAttempts).2 (by decide +kernel)
      (by decide +kernel)⟩

end WeaveRuntime.TurnEngine
