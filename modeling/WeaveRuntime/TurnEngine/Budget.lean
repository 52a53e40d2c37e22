/-
How many requests one turn issues.

An iteration issues at most one request, so the requests are bounded by
the iterations. An iteration short of `max_turns` may go on for any
reason; from there on the tool path halts, and the path without tool
calls goes on in three ways. A retry the policy admits is charged to its
ceiling (`charged`, bounded by `ceiling`). A stop hook that asks to
continue and a recovery hook that matched a halt are charged to nothing:
each such iteration is one more request, without end.

`Charged` says of an iteration that it does not go on in one of these two
ways where `max_turns` is reached. In a run whose iterations are all
charged the requests are bounded and the turn ends.
-/
import WeaveRuntime.TurnEngine.Frames

namespace WeaveRuntime.TurnEngine

open Lib Python

variable {B W M Q : Type}

-- ======== the ceilings

namespace RecoveryPolicy

variable (policy : RecoveryPolicy)

/-- The recovery retries the policy's own ceilings admit in one turn. -/
def ceiling : Nat :=
  policy.maxOutputLimitRetries + policy.maxProviderOverloadRetries
    + 2 * policy.maxCompactionAttempts

def charged (r : RecoveryState) : Nat :=
  min (r.retryCount .outputLimit) policy.maxOutputLimitRetries
    + min (r.retryCount .providerOverload) policy.maxProviderOverloadRetries
    + min (r.compactionAttemptCount .contextLimit)
        policy.maxCompactionAttempts
    + min (r.compactionAttemptCount .mediaLimit) policy.maxCompactionAttempts

theorem charged_le_ceiling (r : RecoveryState) :
    policy.charged r ≤ policy.ceiling := by
  unfold charged ceiling
  omega

theorem charged_of_counters {r r' : RecoveryState}
    (h : r'.counters = r.counters) : policy.charged r' = policy.charged r := by
  obtain ⟨hretry, hcompact⟩ := Prod.mk.inj h
  unfold charged RecoveryState.retryCount RecoveryState.compactionAttemptCount
  rw [hretry, hcompact]

end RecoveryPolicy

namespace RecoveryState

theorem retryCount_afterDecision (r : RecoveryState)
    (input : NormalizedRecoveryInput) (d : RecoveryDecision M)
    (c : FailureClassification) :
    (r.afterDecision input d).retryCount c = r.retryCount c
      + if c = input.failureClass ∧ c ≠ .none ∧ d.action ≠ .halt
          ∧ d.action ≠ .compactAndRetry then 1 else 0 := by
  unfold afterDecision retryCount
  dsimp only
  by_cases hc : c = input.failureClass
  · subst hc
    split <;> rename_i h
    · rw [countOf_countUp, if_pos rfl, if_pos ⟨rfl, h.1.1, h.1.2, h.2⟩]
    · rw [if_neg fun hn => h ⟨⟨hn.2.1, hn.2.2.1⟩, hn.2.2.2⟩, Nat.add_zero]
  · rw [if_neg (show ¬(c = input.failureClass ∧ _) from fun hn => hc hn.1),
      Nat.add_zero]
    split
    · rw [countOf_countUp, if_neg hc, Nat.add_zero]
    · rfl

theorem compactionAttemptCount_afterDecision (r : RecoveryState)
    (input : NormalizedRecoveryInput) (d : RecoveryDecision M)
    (c : FailureClassification) :
    (r.afterDecision input d).compactionAttemptCount c
      = r.compactionAttemptCount c
        + if c = input.failureClass ∧ c ≠ .none
            ∧ d.action = .compactAndRetry then 1 else 0 := by
  unfold afterDecision compactionAttemptCount
  dsimp only
  by_cases hc : c = input.failureClass
  · subst hc
    split <;> rename_i h
    · rw [countOf_countUp, if_pos rfl, if_pos ⟨rfl, h.1.1, h.2⟩]
    · rw [if_neg, Nat.add_zero]
      intro hn
      exact h ⟨⟨hn.2.1, by rw [hn.2.2]; simp⟩, hn.2.2⟩
  · rw [if_neg (show ¬(c = input.failureClass ∧ _) from fun hn => hc hn.1),
      Nat.add_zero]
    split
    · rw [countOf_countUp, if_neg hc, Nat.add_zero]
    · rfl

end RecoveryState

namespace RecoveryPolicy

variable (policy : RecoveryPolicy)

theorem charged_le_afterDecision (r : RecoveryState)
    (input : NormalizedRecoveryInput) (d : RecoveryDecision M) :
    policy.charged r ≤ policy.charged (r.afterDecision input d) := by
  unfold charged
  simp only [RecoveryState.retryCount_afterDecision,
    RecoveryState.compactionAttemptCount_afterDecision]
  omega

theorem charged_of_admits {r : RecoveryState}
    {input : NormalizedRecoveryInput} {d : RecoveryDecision M}
    {action : RecoveryAction}
    (hadmits : policy.admitsRetry r input.failureClass = some action)
    (hd : d.action = action) :
    policy.charged (r.afterDecision input d) = policy.charged r + 1 := by
  unfold charged
  simp only [RecoveryState.retryCount_afterDecision,
    RecoveryState.compactionAttemptCount_afterDecision]
  cases hc : input.failureClass <;> rw [hc] at hadmits
    <;> simp only [admitsRetry] at hadmits
  case none => cases hadmits
  case authError => cases hadmits
  case toolSchemaError => cases hadmits
  case internalError => cases hadmits
  all_goals
    split at hadmits
    · rename_i hlt
      cases hadmits
      simp [hd]
      omega
    · cases hadmits

theorem admitsRetry_of_counters {r r' : RecoveryState}
    (h : r'.counters = r.counters) (c : FailureClassification) :
    policy.admitsRetry r' c = policy.admitsRetry r c := by
  obtain ⟨hretry, hcompact⟩ := Prod.mk.inj h
  unfold admitsRetry RecoveryState.retryCount
    RecoveryState.compactionAttemptCount
  rw [hretry, hcompact]

/-- What the policy decides to do: halt, retry within a ceiling, or, where
nothing failed, go on with the turn. -/
theorem evaluate_action (continuation : M) (r : RecoveryState)
    (input : NormalizedRecoveryInput) (stop : Option (StopPhaseOutcome M))
    (prepared : PreparedSummary) :
    (policy.evaluate continuation r input stop prepared).action = .halt
      ∨ policy.admitsRetry r input.failureClass
          = some (policy.evaluate continuation r input stop prepared).action
      ∨ (policy.evaluate continuation r input stop prepared).action
          = .continueSameTurn := by
  unfold evaluate
  rw [RecoveryDecision.postInit_action]
  split
  · exact .inl rfl
  split
  · exact .inl rfl
  split
  · exact .inl rfl
  split
  · -- a failure
    unfold evaluateFailure
    cases hr : input.retryable with
    | false => exact .inl rfl
    | true =>
      simp only [if_true]
      cases ha : policy.admitsRetry r input.failureClass with
      | none => exact .inl rfl
      | some action => cases action <;> exact .inr (.inl rfl)
  · -- nothing failed
    have hended : ∀ (c h : RecoveryDecision M), c.action = .continueSameTurn →
        h.action = .halt →
        (if input.producedToolCalls then c else h).action = .halt
          ∨ (if input.producedToolCalls then c else h).action
              = .continueSameTurn := by
      intro c h hc hh
      cases input.producedToolCalls
      · exact .inl hh
      · exact .inr hc
    unfold evaluateCompleted
    cases stop with
    | none => exact (hended _ _ rfl rfl).imp_right .inr
    | some outcome =>
      cases hd : outcome.disposition with
      | continueSameTurn =>
        simp only [hd]
        exact .inr (.inr trivial)
      | blockSession =>
        simp only [hd]
        exact .inl trivial
      | _ =>
        simp only [hd]
        exact (hended _ _ rfl rfl).imp_right .inr

end RecoveryPolicy

-- ======== the requests

def TurnStreamEvent.isRequest : TurnStreamEvent M Q → Bool
  | .requestStart _ => true
  | _ => false

/-- The requests issued so far. -/
def TurnLoopState.requests (l : TurnLoopState W M Q) : Nat :=
  l.events.countP TurnStreamEvent.isRequest

/-- What no piece between two decisions changes. -/
structure Steady (s t : TurnRun B W M Q) : Prop where
  iteration : t.loop.iteration = s.loop.iteration
  requests : t.loop.requests = s.loop.requests
  counters : t.loop.recoveryState.counters = s.loop.recoveryState.counters
  terminal : t.loop.terminal = s.loop.terminal

theorem Steady.trans {s t u : TurnRun B W M Q} (h : Steady s t)
    (h' : Steady t u) : Steady s u :=
  ⟨h'.iteration.trans h.iteration, h'.requests.trans h.requests,
    h'.counters.trans h.counters, h'.terminal.trans h.terminal⟩

theorem steady_event (s : TurnRun B W M Q) {event : TurnStreamEvent M Q}
    (h : event.isRequest = false) :
    Steady s { s with loop := { s.loop with
      events := s.loop.events ++ [event] } } := by
  refine ⟨rfl, ?_, rfl, rfl⟩
  simp [TurnLoopState.requests, h]

theorem steady_frame : Frame (B := B) (W := W) (M := M) (Q := Q) Steady where
  trans _ _ _ h h' := h.trans h'
  untouched _ _ h :=
    ⟨h.iteration, congrArg (List.countP _) h.events, h.counters, h.terminal⟩
  commit s messages := by
    refine ⟨rfl, ?_, rfl, rfl⟩
    simp [TurnLoopState.requests, TurnLoopState.committed,
      List.countP_append, List.countP_map, Function.comp_def,
      TurnStreamEvent.isRequest]

theorem steady_compacts :
    Frame.Compacts (B := B) (W := W) (M := M) (Q := Q) Steady where
  replace _ _ := ⟨rfl, rfl, rfl, rfl⟩
  event s _ := steady_event s rfl

-- ======= one iteration

namespace TurnRun

variable (hooks : Hooks B M Q) (env : Collaborators W M Q)
  (policy : RecoveryPolicy)

theorem runAttempt_ensures (s : TurnRun B W M Q) (request : Q)
    (executor : Bool) (prepared : PreparedSummary) :
    (runAttempt hooks env request executor prepared).Ensures s fun _ t =>
      t.loop.iteration = s.loop.iteration
        ∧ t.loop.requests = s.loop.requests + 1
        ∧ t.loop.recoveryState.counters = s.loop.recoveryState.counters
        ∧ t.loop.terminal = s.loop.terminal := by
  have h := steady_frame.finishAttempt hooks env request executor prepared
    (fun a => Method.evolves_write fun s => steady_event s rfl)
    { s with loop := { s.loop with
      events := s.loop.events ++ [.requestStart request] } }
  refine ⟨h.iteration, h.requests.trans ?_, h.counters, h.terminal⟩
  simp [TurnLoopState.requests, TurnStreamEvent.isRequest]

theorem attempt_ensures (s : TurnRun B W M Q) :
    (attempt hooks env).Ensures s fun _ t =>
      t.loop.iteration = s.loop.iteration + 1
        ∧ t.loop.requests ≤ s.loop.requests + 1
        ∧ t.loop.recoveryState.counters = s.loop.recoveryState.counters
        ∧ t.loop.terminal = s.loop.terminal := by
  have hbuild := steady_frame.buildRequest steady_compacts hooks env
    { s with loop := { s.loop with iteration := s.loop.iteration + 1 } }
  apply Method.ensures_write_bind
  apply Method.ensures_bind (P := fun _ u => Steady _ u) hbuild
  · intro built u hu
    obtain ⟨hiter, hreq, hcount, hterm⟩ :=
      runAttempt_ensures hooks env u built.1 built.2.1 built.2.2
    refine ⟨hiter.trans hu.iteration, ?_, hcount.trans hu.counters,
      hterm.trans hu.terminal⟩
    rw [hreq, hu.requests]
    exact Nat.le_refl _
  · intro _ u hu
    exact ⟨hu.iteration, hu.requests ▸ Nat.le_succ _, hu.counters,
      hu.terminal⟩

-- ======== the decision

/-- The decision of a stop phase, if it goes on at all, is a retry the
policy admits: the stop hooks ask for nothing, and no recovery hook that
lets the turn run on matches a halt. -/
def StopPhase.Charged (p : StopPhase M) : Prop :=
  p.candidate.action ≠ .continueSameTurn
    ∧ ¬(p.candidate.action = .halt ∧ p.hook.continueExecution = true
      ∧ p.hook.matchedOwners ≠ [])

variable (settled : Settled M)

theorem stopPhase_ensures (s : TurnRun B W M Q) :
    (stopPhase hooks env policy settled).Ensures s fun r t =>
      Steady s t ∧ ∀ p, r = .ok p →
        p.candidate.action = .halt
          ∨ policy.admitsRetry t.loop.recoveryState p.input.failureClass
              = some p.candidate.action
          ∨ p.candidate.action = .continueSameTurn := by
  apply Method.ensures_bind (P := fun _ t => Steady s t)
  · exact steady_frame.dispatch hooks _ s
  · intro stop t ht
    apply Method.ensures_read_bind
    apply Method.ensures_read_bind
    apply Method.ensures_read_bind
    apply Method.ensures_bind (P := fun _ u => Steady t u)
    · exact steady_frame.dispatch hooks _ t
    · intro hook u hu
      refine ⟨ht.trans hu, fun p hp => ?_⟩
      cases hp
      rw [Method.run_pure, policy.admitsRetry_of_counters hu.counters]
      exact policy.evaluate_action _ _ _ _ _
    · intro e u hu
      exact ⟨ht.trans hu, fun p hp => by cases hp⟩
  · intro e t ht
    exact ⟨ht, fun p hp => by cases hp⟩

theorem conclude_ensures (input : NormalizedRecoveryInput)
    (stopOwners : List String) (decision : RecoveryDecision M)
    (s : TurnRun B W M Q) :
    (conclude settled input stopOwners decision
      : TurnM B W M Q Unit).Ensures s fun _ t =>
      t.loop.iteration = s.loop.iteration
        ∧ t.loop.requests = s.loop.requests
        ∧ t.loop.recoveryState.counters
            = (s.loop.recoveryState.afterDecision input decision).counters
        ∧ (decision.action = .halt → t.loop.terminal.isSome = true) := by
  unfold conclude
  by_cases hhalt : decision.action = .halt
  · rw [if_pos hhalt]
    refine ⟨rfl, ?_, rfl, fun _ => rfl⟩
    show List.countP _ (s.loop.events ++ [_]) = _
    simp [TurnLoopState.requests, TurnStreamEvent.isRequest]
  · rw [if_neg hhalt]
    have h := steady_frame.goOn decision (B := B) (W := W) (M := M) (Q := Q)
      { s with loop := { s.loop with
        recoveryState := s.loop.recoveryState.afterDecision input decision } }
    exact ⟨h.iteration, h.requests, h.counters, fun hn => absurd hn hhalt⟩

/-- What follows an attempt: the charges only grow, and where the turn
goes on past the limit, its decision charged, they have grown. -/
structure Follows (policy : RecoveryPolicy) (limit : Nat)
    (counted : Prop) (s t : TurnRun B W M Q) : Prop where
  iteration : t.loop.iteration = s.loop.iteration
  requests : t.loop.requests = s.loop.requests
  charged_le : policy.charged s.loop.recoveryState
    ≤ policy.charged t.loop.recoveryState
  charged : t.loop.terminal = none → limit ≤ s.loop.iteration → counted →
    policy.charged s.loop.recoveryState + 1
      ≤ policy.charged t.loop.recoveryState

variable {limit : Nat} {s t : TurnRun B W M Q}

theorem Follows.of_steady {counted : Prop} {u : TurnRun B W M Q}
    (h : Steady s t) (h' : Follows policy limit counted t u) :
    Follows policy limit counted s u := by
  have hcharged := policy.charged_of_counters h.counters
  refine ⟨h'.iteration.trans h.iteration, h'.requests.trans h.requests,
    hcharged ▸ h'.charged_le, fun hnone hlimit hc => ?_⟩
  rw [← hcharged]
  exact h'.charged hnone (h.iteration ▸ hlimit) hc

theorem follows_of_terminal {counted : Prop}
    (hiter : t.loop.iteration = s.loop.iteration)
    (hreq : t.loop.requests = s.loop.requests)
    (hle : policy.charged s.loop.recoveryState
      ≤ policy.charged t.loop.recoveryState)
    (hterm : t.loop.terminal.isSome = true) :
    Follows policy limit counted s t := by
  refine ⟨hiter, hreq, hle, fun hnone => ?_⟩
  rw [hnone] at hterm
  cases hterm

theorem finish_ensures (s : TurnRun B W M Q) (terminal : TurnTerminal) :
    (finish terminal : TurnM B W M Q Unit).Ensures s fun _ t =>
      t.loop.iteration = s.loop.iteration
        ∧ t.loop.requests = s.loop.requests
        ∧ t.loop.recoveryState = s.loop.recoveryState
        ∧ t.loop.terminal.isSome = true := by
  refine ⟨rfl, ?_, rfl, rfl⟩
  show List.countP _ (s.loop.events ++ [_]) = _
  simp [TurnLoopState.requests, TurnStreamEvent.isRequest]

theorem conclude_follows (p : StopPhase M) (limit : Nat) (s : TurnRun B W M Q)
    (hp : p.candidate.action = .halt
      ∨ policy.admitsRetry s.loop.recoveryState p.input.failureClass
          = some p.candidate.action
      ∨ p.candidate.action = .continueSameTurn) :
    (conclude settled p.input p.stop.matchedOwners
      (applyRecoveryHookResult p.candidate p.hook p.input)
        : TurnM B W M Q Unit).Ensures s fun _ t =>
      Follows policy limit p.Charged s t := by
  obtain ⟨hiter, hreq, hcount, hterm⟩ := conclude_ensures settled p.input
    p.stop.matchedOwners (applyRecoveryHookResult p.candidate p.hook p.input)
    s (B := B) (W := W) (Q := Q)
  have hle := policy.charged_le_afterDecision s.loop.recoveryState p.input
    (applyRecoveryHookResult p.candidate p.hook p.input)
  have hcharged := policy.charged_of_counters hcount
  refine ⟨hiter, hreq, hcharged ▸ hle, fun hnone hlimit hc => ?_⟩
  -- the turn goes on, so the decision does not halt
  have hne : (applyRecoveryHookResult p.candidate p.hook p.input).action
      ≠ .halt := by
    intro hhalt
    have := hterm hhalt
    rw [hnone] at this
    cases this
  have haction := applyRecoveryHookResult_action p.candidate p.hook p.input
  cases hcont : p.hook.continueExecution with
  | false =>
    rw [hcont] at haction
    exact absurd haction hne
  | true =>
    have hkept : ¬(p.candidate.action = .halt
        ∧ p.hook.matchedOwners ≠ []) := fun h => hc.2 ⟨h.1, hcont, h.2⟩
    rw [hcont, if_neg (by simp), if_neg hkept] at haction
    rw [haction] at hne
    obtain hhalt | hadmits | hgo := hp
    · exact absurd hhalt hne
    · rw [hcharged, policy.charged_of_admits hadmits haction]
    · exact absurd hgo hc.1

theorem Follows.mono {counted counted' : Prop}
    (h : Follows policy limit counted s t) (himp : counted' → counted) :
    Follows policy limit counted' s t :=
  ⟨h.iteration, h.requests, h.charged_le,
    fun hnone hlimit hc => h.charged hnone hlimit (himp hc)⟩

theorem follows_of_steady {counted : Prop} (h : Steady s t) (hno : ¬counted) :
    Follows policy limit counted s t :=
  ⟨h.iteration, h.requests,
    Nat.le_of_eq (policy.charged_of_counters h.counters).symm,
    fun _ _ hc => absurd hc hno⟩

/-- The end of the turn after a decision that was counted. -/
theorem finish_follows {counted : Prop} (input : NormalizedRecoveryInput)
    (decision : RecoveryDecision M)
    (hiter : t.loop.iteration = s.loop.iteration)
    (hreq : t.loop.requests = s.loop.requests) (hrec : t.loop.recoveryState
      = s.loop.recoveryState.afterDecision input decision)
    (terminal : TurnTerminal) :
    (finish terminal : TurnM B W M Q Unit).Ensures t fun _ u =>
      Follows policy limit counted s u := by
  obtain ⟨hiter', hreq', hrec', hterm⟩ := finish_ensures t terminal
  apply follows_of_terminal policy (hiter'.trans hiter) (hreq'.trans hreq) _
    hterm
  rw [hrec', hrec]
  exact policy.charged_le_afterDecision _ input decision

theorem haltUnanswered_follows (unavailable : Bool) (limit : Nat)
    (counted : Prop) (s : TurnRun B W M Q) :
    (haltUnanswered env policy settled unavailable).Ensures s fun _ t =>
      Follows policy limit counted s t := by
  apply Method.ensures_read_bind
  apply Method.ensures_read_bind
  apply Method.ensures_write_bind
  apply Method.ensures_read_bind
  apply finish_follows policy
  case hrec => exact rfl
  case hiter => exact rfl
  case hreq => exact rfl

/-- The decision after the tools is carried out; past the limit it is to
halt. -/
theorem settleReplay_follows (input : NormalizedRecoveryInput)
    (decision : RecoveryDecision M) (messages : List M) (limit : Nat)
    (counted : Prop) (s : TurnRun B W M Q)
    (hlimit : limit ≤ s.loop.iteration → decision.action = .halt) :
    (settleReplay settled input decision messages
      : TurnM B W M Q Unit).Ensures s fun _ t =>
      Follows policy limit counted s t := by
  have hframe := steady_frame (B := B) (W := W) (M := M) (Q := Q)
  have hcommit := hframe.commit { s with loop := { s.loop with
    recoveryState := s.loop.recoveryState.afterDecision input decision } }
    messages
  apply Method.ensures_write_bind
  apply Method.ensures_write_bind
  by_cases hhalt : decision.action = .halt
  · rw [if_pos hhalt]
    apply Method.ensures_read_bind
    apply finish_follows policy
    case hrec => exact rfl
    case hiter => exact rfl
    case hreq => exact hcommit.requests
  · rw [if_neg hhalt]
    have hgo := hcommit.trans (hframe.goOn decision _)
    refine ⟨hgo.iteration, hgo.requests, ?_, fun _ hn => ?_⟩
    · have hle := policy.charged_le_afterDecision s.loop.recoveryState input
        decision
      rw [← policy.charged_of_counters hgo.counters] at hle
      exact hle
    · exact absurd (hlimit hn) hhalt

theorem evaluate_of_maxTurns (continuation : M) (r : RecoveryState)
    {input : NormalizedRecoveryInput} (stop : Option (StopPhaseOutcome M))
    (prepared : PreparedSummary) (h : input.maxTurnsExhausted = true) :
    (policy.evaluate continuation r input stop prepared).action = .halt := by
  unfold RecoveryPolicy.evaluate
  rw [RecoveryDecision.postInit_action, if_pos h]

theorem replayTools_follows (limit : Nat) (s : TurnRun B W M Q) :
    (replayTools hooks env policy limit settled).Ensures s fun r t =>
      Follows policy limit (r = .ok ()) s t := by
  apply Method.ensures_bind (P := fun _ t => Steady s t)
  · exact steady_frame.asking hooks _ s
  · intro replay t ht
    apply Method.ensures_bind (P := fun _ u => Steady t u)
    · apply steady_frame.modify
      intro l
      unfold applySkillOverride
      cases replay.requestOverride <;> exact ⟨rfl, rfl, rfl, rfl, rfl⟩
    · intro _ u hu
      apply Method.ensures_read_bind
      apply Method.ensures_read_bind
      apply Follows.of_steady policy (ht.trans hu)
      apply settleReplay_follows
      intro hlimit
      apply evaluate_of_maxTurns
      exact decide_eq_true hlimit
    · intro e u hu
      exact follows_of_steady policy (ht.trans hu) fun h => by cases h
  · intro e t ht
    exact follows_of_steady policy ht fun h => by cases h

theorem afterTools_follows (limit : Nat) (s : TurnRun B W M Q) :
    (afterTools hooks env policy limit settled).Ensures s fun r t =>
      Follows policy limit (r = .ok ()) s t := by
  apply Method.ensures_read_bind
  split
  · exact haltUnanswered_follows env policy settled false limit _ s
  split
  · exact haltUnanswered_follows env policy settled true limit _ s
  · exact replayTools_follows hooks env policy settled limit s

/-- What follows an attempt, on either path. -/
theorem afterAttempt_follows (limit : Nat) (s : TurnRun B W M Q) :
    (afterAttempt hooks env policy limit settled).Ensures s fun r t =>
      Follows policy limit (r = .ok () ∧ (settled.toolCalls.isEmpty = true →
        ∀ p, ((stopPhase hooks env policy settled).run s).1 = .ok p →
          p.Charged)) s t := by
  unfold afterAttempt
  cases hcalls : settled.toolCalls.isEmpty with
  | false =>
    exact (afterTools_follows hooks env policy settled limit s).mono
      fun _ _ h => h.mono policy And.left
  | true =>
    rw [if_pos rfl]
    apply Method.ensures_bind
      (P := fun r t => Steady s t
        ∧ r = ((stopPhase hooks env policy settled).run s).1 ∧ ∀ p, r = .ok p →
        (p.candidate.action = .halt
          ∨ policy.admitsRetry t.loop.recoveryState p.input.failureClass
              = some p.candidate.action
          ∨ p.candidate.action = .continueSameTurn))
    · obtain ⟨hsteady, hp⟩ := stopPhase_ensures hooks env policy settled s
      exact ⟨hsteady, rfl, hp⟩
    · intro p t ht
      obtain ⟨hsteady, hrun, hp⟩ := ht
      have h := conclude_follows policy settled p limit t (hp p rfl)
      exact (h.of_steady policy hsteady).mono policy
        fun hc => hc.2 rfl p hrun.symm
    · intro e t ht
      exact follows_of_steady policy ht.1 fun h => by cases h.1

/-- The iteration that starts here goes on, past the limit, only by a
retry the policy admits. -/
def Charged (limit : Nat) (s : TurnRun B W M Q) : Prop :=
  s.loop.terminal = none → limit ≤ s.loop.iteration + 1 →
    ∀ p, ((decisionPoint hooks env policy).run s).1 = .ok (some p) → p.Charged

structure Iterates (limit : Nat) (s t : TurnRun B W M Q) : Prop where
  iteration : t.loop.iteration = s.loop.iteration + 1
  requests : t.loop.requests ≤ s.loop.requests + 1
  charged_le : policy.charged s.loop.recoveryState
    ≤ policy.charged t.loop.recoveryState
  charged : t.loop.terminal = none → limit ≤ s.loop.iteration + 1 →
    Charged hooks env policy limit s →
      policy.charged s.loop.recoveryState + 1
        ≤ policy.charged t.loop.recoveryState

theorem iterate_ensures (limit : Nat) (s : TurnRun B W M Q)
    (hnone : s.loop.terminal = none) :
    (iterate hooks env policy limit).Ensures s fun r t =>
      t.loop.iteration = s.loop.iteration + 1
        ∧ t.loop.requests ≤ s.loop.requests + 1
        ∧ policy.charged s.loop.recoveryState
            ≤ policy.charged t.loop.recoveryState
        ∧ (r = .ok () → t.loop.terminal = none →
            limit ≤ s.loop.iteration + 1 → Charged hooks env policy limit s →
            policy.charged s.loop.recoveryState + 1
              ≤ policy.charged t.loop.recoveryState) := by
  obtain ⟨hiter, hreq, hcount, hterm⟩ := attempt_ensures hooks env s
  have hcharged := policy.charged_of_counters hcount
  unfold iterate
  cases hrun : (attempt hooks env).run s with
  | mk r t =>
    rw [hrun] at hiter hreq hcount hterm hcharged
    cases r with
    | error e =>
      unfold Method.Ensures
      rw [Method.run_bind_of_error hrun]
      exact ⟨hiter, hreq, Nat.le_of_eq hcharged.symm, fun h => by cases h⟩
    | ok settled =>
      unfold Method.Ensures
      rw [Method.run_bind_of_ok hrun]
      have hafter := afterAttempt_follows hooks env policy settled limit t
      refine ⟨hafter.iteration.trans hiter, hafter.requests ▸ hreq,
        hcharged ▸ hafter.charged_le, fun hok hnone' hlimit hc => ?_⟩
      rw [← hcharged]
      apply hafter.charged hnone' (hiter ▸ hlimit)
      refine ⟨hok, fun hcalls p hp => hc hnone hlimit p ?_⟩
      -- the decision of the iteration is the one the run has made
      unfold decisionPoint
      rw [Method.run_bind_of_ok hrun, if_pos hcalls]
      cases hstop : (stopPhase hooks env policy settled).run t with
      | mk q u =>
        rw [hstop] at hp
        cases hp
        rw [Method.run_bind_of_ok hstop, Method.run_pure]

theorem step_iterates (limit : Nat) (s : TurnRun B W M Q)
    (hnone : s.loop.terminal = none) :
    Iterates hooks env policy limit s (step hooks env policy limit s) := by
  obtain ⟨hiter, hreq, hle, hcharged⟩ :=
    iterate_ensures hooks env policy limit s hnone
  unfold step
  rw [hnone, if_neg (by simp)]
  unfold Method.tryExcept
  dsimp only
  cases hrun : (iterate hooks env policy limit).run s with
  | mk r t =>
    rw [hrun] at hiter hreq hle hcharged
    cases r with
    | ok u => exact ⟨hiter, hreq, hle, hcharged rfl⟩
    | error e =>
      -- the turn ends
      obtain ⟨hiter', hreq', hrec, hterm⟩ :=
        finish_ensures t (errorTerminal t.loop.lastAttempt e)
      have hfailed : ((failed e).run t).2
          = ((finish (errorTerminal t.loop.lastAttempt e)).run t).2 := rfl
      dsimp only
      rw [hfailed]
      refine ⟨hiter'.trans hiter, hreq' ▸ hreq, hrec ▸ hle, fun hn => ?_⟩
      rw [hn] at hterm
      cases hterm

-- ============= the run

structure Starts (s : TurnRun B W M Q) : Prop where
  iteration : s.loop.iteration = 0
  recoveryState : s.loop.recoveryState = {}
  events : s.loop.events = []
  terminal : s.loop.terminal = none

/-- The account of a run: every iteration so far is one below the limit,
or is charged to a ceiling, but for the one that ended the turn. -/
structure Accounted (limit : Nat) (s : TurnRun B W M Q) : Prop where
  requests : s.loop.requests ≤ s.loop.iteration
  bound : s.loop.iteration ≤ limit + policy.charged s.loop.recoveryState
  running : s.loop.terminal = none →
    s.loop.iteration + 1 ≤ limit + policy.charged s.loop.recoveryState

theorem Starts.accounted (hlimit : 0 < limit) (h : s.Starts) :
    s.Accounted policy limit := by
  refine ⟨?_, ?_, fun _ => ?_⟩
  · rw [TurnLoopState.requests, h.events]
    exact Nat.zero_le _
  · rw [h.iteration]
    exact Nat.zero_le _
  · rw [h.iteration]
    omega

theorem Accounted.step (h : s.Accounted policy limit)
    (hc : s.Charged hooks env policy limit) :
    (s.step hooks env policy limit).Accounted policy limit := by
  cases hterm : s.loop.terminal with
  | some terminal =>
    have hstay : s.step hooks env policy limit = s := by
      unfold TurnRun.step
      rw [hterm]
      rfl
    rw [hstay]
    exact h
  | none =>
    have hstep := step_iterates hooks env policy limit s hterm
    have hrunning := h.running hterm
    refine ⟨?_, ?_, fun hnone => ?_⟩
    · have := h.requests
      have := hstep.requests
      rw [hstep.iteration]
      omega
    · have := hstep.charged_le
      rw [hstep.iteration]
      omega
    · have hle := hstep.charged_le
      rw [hstep.iteration]
      by_cases hlimit : limit ≤ s.loop.iteration + 1
      · have := hstep.charged hnone hlimit hc
        omega
      · omega

theorem accounted_after (hlimit : 0 < limit) (hs : s.Starts) (n : Nat)
    (hall : ∀ k < n, (after hooks env policy limit k s).Charged hooks env
      policy limit) :
    (after hooks env policy limit n s).Accounted policy limit := by
  induction n with
  | zero => exact hs.accounted policy hlimit
  | succ n ih =>
    have hn := ih fun k hk => hall k (Nat.lt_succ_of_lt hk)
    exact hn.step hooks env policy (hall n (Nat.lt_succ_self n))

/-- A turn that has not ended has made all its iterations. -/
theorem iteration_after (limit : Nat) (hs : s.Starts) (n : Nat)
    (hnone : (after hooks env policy limit n s).loop.terminal = none) :
    (after hooks env policy limit n s).loop.iteration = n := by
  induction n with
  | zero => exact hs.iteration
  | succ n ih =>
    have hprev : (after hooks env policy limit n s).loop.terminal = none := by
      cases hterm : (after hooks env policy limit n s).loop.terminal with
      | none => rfl
      | some terminal =>
        rw [after, TurnRun.step, hterm, Option.isSome_some, if_pos rfl,
          hterm] at hnone
        cases hnone
    have hstep := step_iterates hooks env policy limit _ hprev
    rw [after, hstep.iteration, ih hprev]

end TurnRun

theorem maxIterations_pos (maxTurns : Option Nat) :
    0 < maxIterations maxTurns := by
  unfold maxIterations
  cases maxTurns with
  | none => exact Nat.zero_lt_succ _
  | some n =>
    by_cases h : n = 0
    · simp [h]
    · simp [h]
      omega

/-- Where every iteration past `max_turns` goes on only by a retry within
a ceiling, a turn issues no more requests than `max_turns` and the
ceilings admit, and it ends. -/
theorem TurnRun.requests_bounded (hooks : Hooks B M Q)
    (env : Collaborators W M Q) (policy : RecoveryPolicy)
    (maxTurns : Option Nat) (s : TurnRun B W M Q) (hs : s.Starts) (n : Nat)
    (hall : ∀ k < n,
      (TurnRun.after hooks env policy (maxIterations maxTurns) k s).Charged hooks
        env policy (maxIterations maxTurns)) :
    (TurnRun.after hooks env policy (maxIterations maxTurns) n s).loop.requests
        ≤ maxIterations maxTurns + policy.ceiling
      ∧ (maxIterations maxTurns + policy.ceiling ≤ n →
        (TurnRun.after hooks env policy (maxIterations maxTurns) n
          s).loop.terminal.isSome = true) := by
  have hacc := accounted_after hooks env policy (maxIterations_pos maxTurns)
    hs n hall
  have hceil := policy.charged_le_ceiling
    (TurnRun.after hooks env policy (maxIterations maxTurns) n
      s).loop.recoveryState
  refine ⟨?_, fun hn => ?_⟩
  · have := hacc.requests
    have := hacc.bound
    omega
  · rw [Option.isSome_iff_ne_none]
    intro hnone
    have hiter := iteration_after hooks env policy _ hs n hnone
    have := hacc.running hnone
    omega

-- ==== hooks that ask for more

namespace TurnRun

/-- Collaborators that do nothing: the model answers, without tool calls,
that its turn is over. -/
def idle : Collaborators Unit Unit Unit where
  prepare _ _ := pure { activeMessages := [] }
  joinSidecars c := pure c
  effective _ c := c
  buildPrompt _ := pure {}
  rebuildPrompt _ := pure {}
  compose _ _ _ := pure ()
  finishRequest _ _ := pure ((), true)
  attempt _ w := .done (.ok { terminal := { stopReason := some "end_turn" } }, w)
  hinted _ _ := none
  continuation _ := ()
  abortReason _ := none
  finalize _ w := .done (.ok {}, w)

/-- Nothing is registered. -/
def unhooked : Hooks Unit Unit Unit where
  dispatch _ := pure []

/-- A stop hook that asks to continue, each time. -/
def insistent : Hooks Unit Unit Unit where
  dispatch
    | .stop _ => pure
        [{ owner := "host"
           outcome := .returned
            [{ stopDisposition := some .continueSameTurn }] }]
    | _ => pure []

def started : TurnRun Unit Unit Unit Unit :=
  { loop := { world := (), workingMessages := [()] }, bus := () }

theorem starts_started : started.Starts := ⟨rfl, rfl, rfl, rfl⟩

end TurnRun

/-- The limit is one turn and the ceilings admit four retries; with the
insistent stop hook a turn issues its sixth request all the same. -/
theorem TurnRun.stop_hook_unbounded :
    ¬(TurnRun.after TurnRun.insistent TurnRun.idle {} (maxIterations (some 1)) 6
        TurnRun.started).loop.requests
      ≤ maxIterations (some 1) + RecoveryPolicy.ceiling {} := by
  decide

theorem TurnRun.requests_bounded_unhooked :
    (TurnRun.after TurnRun.unhooked TurnRun.idle {} (maxIterations (some 1)) 1
        TurnRun.started).loop.requests
      ≤ maxIterations (some 1) + RecoveryPolicy.ceiling {} := by
  refine (TurnRun.requests_bounded TurnRun.unhooked TurnRun.idle {} (some 1)
    TurnRun.started TurnRun.starts_started 1 ?_).1
  intro k hk
  obtain rfl : k = 0 := by omega
  intro _ _ p hp
  cases hp
  exact ⟨by decide, by decide⟩

end WeaveRuntime.TurnEngine
