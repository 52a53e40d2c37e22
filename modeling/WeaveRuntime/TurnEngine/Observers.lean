/-
Observer hooks: registrations whose handlers return nothing, or fail under
the isolating policy.

Two runs of one turn are compared, with observers and with no hook at
all. Side by side, iteration by iteration, the loops are in the same
state (`Alike`): a dispatch gives the observed run the same result but
for the owners of what matched, and up to the last decision nothing reads
these. The last decision does. Where the policy halts, a recovery
observer that matched resumes the turn, and a stop observer that matched
is named in the terminal.

So the observed turn shows the same requests, messages and terminal
exactly when no observer has matched at a halt (`transparent_iff`).
-/
import WeaveRuntime.TurnEngine.Budget

namespace WeaveRuntime.TurnEngine

open Lib Python
open Jobs (Fields setField updateFields)
open Method (corresponds_eq coupled_bind coupled_pure coupled_read
  coupled_write run_bind_of_error run_bind_of_ok run_within_of_ok)

variable {B W M Q : Type}

/-- Whatever is dispatched, every registration that matches is quiet. -/
def Hooks.Observing (hooks : Hooks B M Q) : Prop :=
  ∀ payload b, ∃ calls b', (hooks.dispatch payload).run b = (.ok calls, b')
    ∧ ∀ call ∈ calls, call.quiet = true

/-- No hook is registered. -/
def noHooks : Hooks Unit M Q where
  dispatch _ := pure []

/-- The two turns are at the same point. -/
def Alike (s : TurnRun B W M Q) (t : TurnRun Unit W M Q) : Prop := s.loop = t.loop

abbrev SideBySide {A A' : Type} (V : A → A' → Prop) (m : TurnM B W M Q A)
    (n : TurnM Unit W M Q A') : Prop :=
  Method.Coupled Alike V m n

def SameButOwners (r r' : HookDispatchResult M) : Prop :=
  ∃ id, r = quietResult id r.matchedOwners ∧ r' = quietResult id []

namespace Alike

variable {hooks : Hooks B M Q}

-- ========= dispatching

theorem get {A : Type} (f : TurnLoopState W M Q → A) :
    SideBySide Eq (TurnRun.get f : TurnM B W M Q A) (TurnRun.get f) :=
  coupled_read fun s t h => by rw [show s.loop = t.loop from h]

theorem modify (f : TurnLoopState W M Q → TurnLoopState W M Q) :
    SideBySide (fun _ _ => True)
      (TurnRun.modify f : TurnM B W M Q Unit) (TurnRun.modify f) :=
  coupled_write fun s t h => by
    show f s.loop = f t.loop
    rw [show s.loop = t.loop from h]

theorem call {A : Type} (m : Method W String A) :
    SideBySide Eq (TurnRun.call m : TurnM B W M Q A) (TurnRun.call m) := by
  intro s t h
  have hloop : s.loop = t.loop := h
  refine ⟨?_, ?_⟩
  · apply corresponds_eq.2
    show ((m.run s.loop.world).1.mapError id) = _
    rw [hloop]
    rfl
  · show { s.loop with world := (m.run s.loop.world).2 } = _
    rw [hloop]
    rfl

section

variable (h : hooks.Observing)
include h

theorem matching (payload : HookPayload M Q) :
    SideBySide
      (fun calls calls' => (∀ call ∈ calls, call.quiet = true) ∧ calls' = [])
      (TurnRun.matching hooks payload : TurnM B W M Q _)
      (TurnRun.matching noHooks payload) := by
  apply coupled_bind (V := fun calls calls' =>
    (∀ call ∈ calls, HookMatch.quiet call = true) ∧ calls' = [])
  · intro s t hst
    obtain ⟨calls, b', hrun, hquiet⟩ := h payload s.bus
    rw [run_within_of_ok hrun]
    exact ⟨⟨hquiet, rfl⟩, hst⟩
  · intro calls calls' hcalls
    apply coupled_bind (modify _)
    intro _ _ _
    exact coupled_pure hcalls

theorem dispatch (payload : HookPayload M Q) :
    SideBySide SameButOwners
      (TurnRun.dispatch hooks payload : TurnM B W M Q _)
      (TurnRun.dispatch noHooks payload) := by
  apply coupled_bind (matching h payload)
  intro calls calls' ⟨hquiet, hnone⟩
  apply coupled_bind (get _)
  intro id id' hid
  subst hid hnone
  refine coupled_pure ⟨id, ?_, ?_⟩
  · rw [result_of_quiet hquiet]
    rfl
  · exact result_of_quiet (fun _ hc => by cases hc) _ _

theorem dispatchTool (payload : HookPayload M Q) :
    SideBySide Eq
      (TurnRun.dispatchTool hooks payload : TurnM B W M Q _)
      (TurnRun.dispatchTool noHooks payload) := by
  apply coupled_bind (matching h payload)
  intro calls calls' ⟨hquiet, hnone⟩
  subst hnone
  apply coupled_pure
  unfold toolAnswer
  rw [if_pos (List.all_eq_true.2 hquiet)]
  rfl

theorem asking {A : Type} (m : W → Asking W M Q A) :
    SideBySide Eq
      (TurnRun.asking hooks m : TurnM B W M Q A) (TurnRun.asking noHooks m) := by
  apply coupled_bind (get _)
  intro world world' hworld
  subst hworld
  apply coupled_bind (Resumption.coupled_run (dispatchTool h) _)
  intro outcome outcome' houtcome
  subst houtcome
  apply coupled_bind (modify _)
  intro _ _ _ s t hst
  exact ⟨corresponds_eq.2 rfl, hst⟩

-- ========= the attempt

theorem announceCompaction (summaryId : Option String) :
    SideBySide (fun _ _ => True)
      (TurnRun.announceCompaction hooks summaryId : TurnM B W M Q Unit)
      (TurnRun.announceCompaction noHooks summaryId) := by
  cases summaryId with
  | none => exact coupled_pure trivial
  | some id =>
    apply coupled_bind (dispatch h _)
    intro _ _ _
    exact coupled_pure trivial

theorem commitCompaction (prepared : PreparedContext M) :
    SideBySide (fun _ _ => True)
      (TurnRun.commitCompaction hooks prepared : TurnM B W M Q Unit)
      (TurnRun.commitCompaction noHooks prepared) := by
  unfold TurnRun.commitCompaction
  cases prepared.transcriptMessages with
  | none => exact coupled_pure trivial
  | some messages =>
    apply coupled_bind (modify _)
    intro _ _ _
    apply coupled_bind (announceCompaction h _)
    intro _ _ _
    exact modify _

end

variable (env : Collaborators W M Q)

theorem prepareContext (h : hooks.Observing) :
    SideBySide Eq
      (TurnRun.prepareContext hooks env : TurnM B W M Q _)
      (TurnRun.prepareContext noHooks env) := by
  apply coupled_bind (get _)
  intro messages _ heq
  subst heq
  apply coupled_bind (dispatch h _)
  intro _ _ _
  apply coupled_bind (get _)
  intro privateContext _ heq
  subst heq
  apply coupled_bind (call _)
  intro prepared _ heq
  subst heq
  apply coupled_bind (commitCompaction h prepared)
  intro _ _ _
  apply coupled_bind (modify _)
  intro _ _ _
  exact coupled_pure rfl

theorem refinePrompt (prepared : PreparedSummary) (additional : List String) :
    SideBySide Eq
      (TurnRun.refinePrompt env prepared additional : TurnM B W M Q _)
      (TurnRun.refinePrompt env prepared additional) := by
  unfold TurnRun.refinePrompt
  by_cases hnone : additional = []
  · rw [if_pos hnone, if_pos hnone]
    exact coupled_pure rfl
  · rw [if_neg hnone, if_neg hnone]
    exact call _

theorem buildRequest (h : hooks.Observing) :
    SideBySide Eq
      (TurnRun.buildRequest hooks env : TurnM B W M Q _)
      (TurnRun.buildRequest noHooks env) := by
  apply coupled_bind (prepareContext env h)
  intro prepared _ heq
  subst heq
  apply coupled_bind (get _)
  intro privateContext _ heq
  subst heq
  apply coupled_bind (call _)
  intro joined _ heq
  subst heq
  apply coupled_bind (modify _)
  intro _ _ _
  apply coupled_bind (get _)
  intro messages _ heq
  subst heq
  apply coupled_bind (dispatch h _)
  intro userPrompt userPrompt' ⟨_, huser, huser'⟩
  apply coupled_bind (dispatch h _)
  intro preContext preContext' ⟨_, hpre, hpre'⟩
  rw [huser, huser', hpre, hpre']
  apply coupled_bind (call _)
  intro built _ heq
  subst heq
  apply coupled_bind (dispatch h _)
  intro postContext postContext' ⟨_, hpost, hpost'⟩
  rw [hpost, hpost']
  apply coupled_bind (refinePrompt env built _)
  intro summary _ heq
  subst heq
  apply coupled_bind (get _)
  intro effective _ heq
  subst heq
  apply coupled_bind (call _)
  intro request _ heq
  subst heq
  apply coupled_bind (dispatch h _)
  intro preModel preModel' ⟨_, hmodel, hmodel'⟩
  rw [hmodel, hmodel']
  apply coupled_bind (call _)
  intro finished _ heq
  subst heq
  apply coupled_bind (modify _)
  intro _ _ _
  exact coupled_pure rfl

theorem attempt (h : hooks.Observing) :
    SideBySide Eq
      (TurnRun.attempt hooks env : TurnM B W M Q _)
      (TurnRun.attempt noHooks env) := by
  apply coupled_bind (modify _)
  intro _ _ _
  apply coupled_bind (buildRequest env h)
  intro built _ heq
  subst heq
  apply coupled_bind (modify _)
  intro _ _ _
  apply coupled_bind (modify _)
  intro _ _ _
  apply coupled_bind (asking h _)
  intro model _ heq
  subst heq
  apply coupled_bind (get _)
  intro finished _ heq
  subst heq
  apply coupled_bind (modify _)
  intro _ _ _
  apply coupled_bind (modify _)
  intro _ _ _
  apply coupled_bind (modify _)
  intro _ _ _
  apply coupled_bind (dispatch h _)
  intro postModel postModel' ⟨_, hpost, hpost'⟩
  rw [hpost, hpost']
  apply coupled_bind (V := fun _ _ => True)
  · apply coupled_bind (modify _)
    intro _ _ _
    exact modify _
  · intro _ _ _
    exact coupled_pure rfl

-- ======== the decision

/-- Two decisions: the same but for what the metadata says. -/
structure Agree (d d' : RecoveryDecision M) : Prop where
  action : d.action = d'.action
  requestOverride : d.requestOverride = d'.requestOverride
  injectedMessages : d.injectedMessages = d'.injectedMessages

structure SamePhase (p p' : TurnRun.StopPhase M) : Prop where
  stop : SameButOwners p.stop p'.stop
  hook : SameButOwners p.hook p'.hook
  input : p.input = p'.input
  candidate : Agree p.candidate p'.candidate
  exactly : p.stop.matchedOwners = [] → p.candidate = p'.candidate

theorem evaluate_agree (policy : RecoveryPolicy) (continuation : M)
    (r : RecoveryState) (input : NormalizedRecoveryInput) (id : Nat)
    (owners : List String) (prepared : PreparedSummary) :
    Agree
      (policy.evaluate continuation r input
        (some (stopPhaseOutcome (quietResult id owners))) prepared)
      (policy.evaluate continuation r input
        (some (stopPhaseOutcome (quietResult id []))) prepared) := by
  unfold RecoveryPolicy.evaluate
  split
  · exact ⟨rfl, rfl, rfl⟩
  split
  · exact ⟨rfl, rfl, rfl⟩
  split
  · exact ⟨rfl, rfl, rfl⟩
  split
  · exact ⟨rfl, rfl, rfl⟩
  · unfold RecoveryPolicy.evaluateCompleted stopPhaseOutcome quietResult
    cases input.producedToolCalls <;> exact ⟨rfl, rfl, rfl⟩

theorem stopPhase (h : hooks.Observing) (policy : RecoveryPolicy)
    (settled : Settled M) :
    SideBySide SamePhase
      (TurnRun.stopPhase hooks env policy settled : TurnM B W M Q _)
      (TurnRun.stopPhase noHooks env policy settled) := by
  apply coupled_bind (dispatch h _)
  intro stop stop' hstop
  apply coupled_bind (get _)
  intro input _ heq
  subst heq
  apply coupled_bind (V := fun d d' =>
    Agree d d' ∧ (stop.matchedOwners = [] → d = d'))
  · apply coupled_read
    intro s t hst
    obtain ⟨id, hs, hs'⟩ := hstop
    rw [show s.loop = t.loop from hst, hs']
    refine ⟨?_, fun hnone => ?_⟩
    · rw [hs]
      exact evaluate_agree policy _ _ _ _ _ _
    · rw [hs, hnone]
  · intro candidate candidate' ⟨hagree, hexactly⟩
    apply coupled_bind (get _)
    intro iteration _ heq
    subst heq
    rw [hagree.action]
    apply coupled_bind (dispatch h _)
    intro hook hook' hhook
    exact coupled_pure ⟨hstop, hhook, rfl, hagree, hexactly⟩

/-- No recovery observer speaks up: the decision is what the policy made
of it. -/
theorem applied_agree {p p' : TurnRun.StopPhase M} (h : SamePhase p p')
    (hgo : p.candidate.action ≠ .halt) :
    Agree (applyRecoveryHookResult p.candidate p.hook p.input)
      (applyRecoveryHookResult p'.candidate p'.hook p'.input) := by
  obtain ⟨id, hhook, hhook'⟩ := h.hook
  have hgo' : p'.candidate.action ≠ .halt := h.candidate.action ▸ hgo
  rw [hhook, hhook']
  unfold applyRecoveryHookResult quietResult
  simp only [Bool.not_true, Bool.false_eq_true, if_false, hgo, hgo',
    false_and]
  refine ⟨h.candidate.action, ?_, ?_⟩
  · rw [RecoveryDecision.postInit_requestOverride,
      RecoveryDecision.postInit_requestOverride, h.candidate.requestOverride]
  · rw [RecoveryDecision.postInit_injectedMessages,
      RecoveryDecision.postInit_injectedMessages, h.candidate.injectedMessages]

theorem applied_action (d : RecoveryDecision M) {r r' : HookDispatchResult M}
    (h : SameButOwners r r') (input : NormalizedRecoveryInput) :
    (applyRecoveryHookResult d r input).action = .halt
      ↔ d.action = .halt ∧ r.matchedOwners = [] := by
  obtain ⟨id, hr, -⟩ := h
  have hcont : r.continueExecution = true := by rw [hr]; rfl
  rw [applyRecoveryHookResult_action, hcont]
  by_cases hd : d.action = .halt
  · by_cases hnone : r.matchedOwners = []
    · simp [hd, hnone]
    · simp [hd, hnone, resumedAction_ne_halt]
  · simp [hd]

-- ===== carrying it out

variable {d d' : RecoveryDecision M}

theorem goOn (h : Agree d d') :
    SideBySide (fun _ _ => True)
      (TurnRun.goOn d : TurnM B W M Q Unit) (TurnRun.goOn d') := by
  have happly : ∀ c, TurnRun.applyDecision c d = TurnRun.applyDecision c d' := by
    intro c
    unfold TurnRun.applyDecision
    rw [h.action, h.requestOverride]
  unfold TurnRun.goOn
  rw [h.injectedMessages]
  simp only [happly]
  apply coupled_bind (modify _)
  intro _ _ _
  exact modify _

theorem afterDecision_agree (h : Agree d d') (r : RecoveryState)
    (input : NormalizedRecoveryInput) :
    r.afterDecision input d = r.afterDecision input d' := by
  unfold RecoveryState.afterDecision
  rw [h.action, h.requestOverride]

theorem conclude_goesOn (h : Agree d d') (hgo : d.action ≠ .halt)
    (settled : Settled M) (input : NormalizedRecoveryInput)
    (owners owners' : List String) :
    SideBySide (fun _ _ => True)
      (TurnRun.conclude settled input owners d : TurnM B W M Q Unit)
      (TurnRun.conclude settled input owners' d') := by
  have hgo' : d'.action ≠ .halt := h.action ▸ hgo
  unfold TurnRun.conclude
  simp only [afterDecision_agree h, hgo, hgo', if_false]
  apply coupled_bind (modify _)
  intro _ _ _
  exact goOn h

theorem conclude_same (settled : Settled M) (input : NormalizedRecoveryInput)
    (owners : List String) (d : RecoveryDecision M) :
    SideBySide (fun _ _ => True)
      (TurnRun.conclude settled input owners d : TurnM B W M Q Unit)
      (TurnRun.conclude settled input owners d) := by
  unfold TurnRun.conclude
  apply coupled_bind (modify _)
  intro _ _ _
  by_cases hhalt : d.action = .halt
  · rw [if_pos hhalt, if_pos hhalt]
    apply coupled_bind (get _)
    intro terminal _ heq
    subst heq
    exact modify _
  · rw [if_neg hhalt, if_neg hhalt]
    exact goOn ⟨rfl, rfl, rfl⟩

theorem haltUnanswered (policy : RecoveryPolicy) (settled : Settled M)
    (unavailable : Bool) :
    SideBySide (fun _ _ => True)
      (TurnRun.haltUnanswered env policy settled unavailable
        : TurnM B W M Q Unit)
      (TurnRun.haltUnanswered env policy settled unavailable) := by
  apply coupled_bind (get _)
  intro input _ heq
  subst heq
  apply coupled_bind (get _)
  intro decision _ heq
  subst heq
  apply coupled_bind (modify _)
  intro _ _ _
  apply coupled_bind (get _)
  intro terminal _ heq
  subst heq
  exact modify _

theorem settleReplay (settled : Settled M) (input : NormalizedRecoveryInput)
    (decision : RecoveryDecision M) (messages : List M) :
    SideBySide (fun _ _ => True)
      (TurnRun.settleReplay settled input decision messages
        : TurnM B W M Q Unit)
      (TurnRun.settleReplay settled input decision messages) := by
  apply coupled_bind (modify _)
  intro _ _ _
  apply coupled_bind (modify _)
  intro _ _ _
  by_cases hhalt : decision.action = .halt
  · rw [if_pos hhalt, if_pos hhalt]
    apply coupled_bind (get _)
    intro terminal _ heq
    subst heq
    exact modify _
  · rw [if_neg hhalt, if_neg hhalt]
    exact goOn ⟨rfl, rfl, rfl⟩

theorem afterTools (h : hooks.Observing) (policy : RecoveryPolicy)
    (limit : Nat) (settled : Settled M) :
    SideBySide (fun _ _ => True)
      (TurnRun.afterTools hooks env policy limit settled : TurnM B W M Q Unit)
      (TurnRun.afterTools noHooks env policy limit settled) := by
  apply coupled_bind (get _)
  intro reason _ heq
  subst heq
  split
  · exact haltUnanswered env policy settled false
  split
  · exact haltUnanswered env policy settled true
  apply coupled_bind (asking h _)
  intro replay _ heq
  subst heq
  apply coupled_bind (modify _)
  intro _ _ _
  apply coupled_bind (get _)
  intro input _ heq
  subst heq
  apply coupled_bind (get _)
  intro decision _ heq
  subst heq
  exact settleReplay settled input decision _

theorem failed (error : String) :
    SideBySide (fun _ _ => True)
      (TurnRun.failed error : TurnM B W M Q Unit) (TurnRun.failed error) := by
  apply coupled_bind (get _)
  intro terminal _ heq
  subst heq
  exact modify _

end Alike

-- ======= one iteration

/-- No observer has matched where the policy halts. -/
def TurnRun.StopPhase.Unobserved (p : TurnRun.StopPhase M) : Prop :=
  p.candidate.action = .halt →
    p.stop.matchedOwners = [] ∧ p.hook.matchedOwners = []

/-- Whose names the terminal carries. -/
def TurnLoopState.stopOwners (l : TurnLoopState W M Q) :
    Option (List String) :=
  l.terminal.map fun t => t.postEffects.matchedStopHooks

theorem conclude_run (settled : Settled M) (input : NormalizedRecoveryInput)
    (owners : List String) (d : RecoveryDecision M) (s : TurnRun B W M Q) :
    (TurnRun.conclude settled input owners d).run s
      = (.ok (), ((TurnRun.conclude settled input owners d).run s).2) := by
  unfold TurnRun.conclude
  by_cases hhalt : d.action = .halt
  · rw [if_pos hhalt]
    rfl
  · rw [if_neg hhalt]
    rfl

theorem stopOwners_conclude (settled : Settled M)
    (input : NormalizedRecoveryInput) (owners : List String)
    (d : RecoveryDecision M) (s : TurnRun B W M Q) :
    ((TurnRun.conclude settled input owners d).run s).2.loop.stopOwners
      = if d.action = .halt then some owners else s.loop.stopOwners := by
  unfold TurnRun.conclude
  by_cases hhalt : d.action = .halt
  · rw [if_pos hhalt, if_pos hhalt]
    show some (turnPostEffects _ owners).matchedStopHooks = _
    rw [turnPostEffects_matchedStopHooks]
  · rw [if_neg hhalt, if_neg hhalt]
    rfl

namespace Alike

variable {hooks : Hooks B M Q}

/-- The decision is carried out alike where no observer has matched at a
halt. -/
theorem conclude_unobserved {p p' : TurnRun.StopPhase M} (h : SamePhase p p')
    (hp : p.Unobserved) (settled : Settled M) :
    SideBySide (fun _ _ => True)
      (TurnRun.conclude settled p.input p.stop.matchedOwners
        (applyRecoveryHookResult p.candidate p.hook p.input)
        : TurnM B W M Q Unit)
      (TurnRun.conclude settled p'.input p'.stop.matchedOwners
        (applyRecoveryHookResult p'.candidate p'.hook p'.input)) := by
  rw [← h.input]
  by_cases hhalt : p.candidate.action = .halt
  · obtain ⟨hstop, hhook⟩ := hp hhalt
    obtain ⟨id, -, hstop'⟩ := h.stop
    obtain ⟨id', hr, hr'⟩ := h.hook
    rw [hhook] at hr
    rw [hr.trans hr'.symm, ← h.exactly hstop, hstop, hstop']
    exact conclude_same settled p.input [] _
  · have hagree := applied_agree h hhalt
    rw [← h.input] at hagree
    apply conclude_goesOn hagree
    intro hn
    exact hhalt ((applied_action p.candidate h.hook p.input).1 hn).1

/-- And not where one has. -/
theorem conclude_observed {p p' : TurnRun.StopPhase M} (h : SamePhase p p')
    (hp : ¬p.Unobserved) (settled : Settled M) {s : TurnRun B W M Q}
    {t : TurnRun Unit W M Q} (hnone : s.loop.terminal = none) :
    ((TurnRun.conclude settled p.input p.stop.matchedOwners
        (applyRecoveryHookResult p.candidate p.hook p.input)).run
          s).2.loop.terminal
      ≠ ((TurnRun.conclude settled p'.input p'.stop.matchedOwners
        (applyRecoveryHookResult p'.candidate p'.hook p'.input)).run
          t).2.loop.terminal := by
  intro heq
  have howners := congrArg (Option.map fun t : TurnTerminal =>
    t.postEffects.matchedStopHooks) heq
  have hs := stopOwners_conclude settled p.input p.stop.matchedOwners
    (applyRecoveryHookResult p.candidate p.hook p.input) s
  have ht := stopOwners_conclude settled p'.input p'.stop.matchedOwners
    (applyRecoveryHookResult p'.candidate p'.hook p'.input) t
  have hhalt : p.candidate.action = .halt := by
    by_contra hn
    exact hp fun hh => absurd hh hn
  obtain ⟨id, hstop, hstop'⟩ := h.stop
  obtain ⟨id', hhook, hhook'⟩ := h.hook
  -- without hooks the turn halts, and names no one
  have hself : SameButOwners p'.hook p'.hook :=
    ⟨id', by rw [hhook']; rfl, hhook'⟩
  have hbase : (applyRecoveryHookResult p'.candidate p'.hook p'.input).action
      = .halt := by
    apply (applied_action p'.candidate hself p'.input).2
    exact ⟨h.candidate.action ▸ hhalt, by rw [hhook']; rfl⟩
  have hnames : p'.stop.matchedOwners = [] := by rw [hstop']; rfl
  rw [if_pos hbase] at ht
  have ht := ht.trans (congrArg some hnames)
  by_cases hmatched : p.hook.matchedOwners = []
  · -- the observed turn halts as well, and names the stop observers
    rw [if_pos ((applied_action p.candidate h.hook p.input).2
      ⟨hhalt, hmatched⟩)] at hs
    have : some p.stop.matchedOwners = some [] :=
      hs.symm.trans (howners.trans ht)
    exact hp fun _ => ⟨Option.some.inj this, hmatched⟩
  · -- the observed turn goes on
    rw [if_neg fun hn =>
      hmatched ((applied_action p.candidate h.hook p.input).1 hn).2] at hs
    have hnone' : s.loop.stopOwners = none := by
      unfold TurnLoopState.stopOwners
      rw [hnone]
      rfl
    have : (none : Option (List String)) = some [] :=
      hnone'.symm.trans (hs.symm.trans (howners.trans ht))
    cases this

/-- One iteration, where both turns are at the same point: it ends alike,
or comes to a decision that each turn carries out by itself. -/
theorem iterate_cases (h : hooks.Observing) (env : Collaborators W M Q)
    (policy : RecoveryPolicy) (limit : Nat) {s : TurnRun B W M Q}
    {t : TurnRun Unit W M Q} (hst : Alike s t) :
    ((∀ p, ((TurnRun.decisionPoint hooks env policy).run s).1 ≠ .ok (some p))
      ∧ Method.Corresponds (fun _ _ => True)
          ((TurnRun.iterate hooks env policy limit).run s).1
          ((TurnRun.iterate noHooks env policy limit).run t).1
      ∧ Alike ((TurnRun.iterate hooks env policy limit).run s).2
          ((TurnRun.iterate noHooks env policy limit).run t).2)
    ∨ ∃ settled p p' s' t', SamePhase p p' ∧ Alike s' t'
      ∧ s'.loop.terminal = s.loop.terminal
      ∧ ((TurnRun.decisionPoint hooks env policy).run s).1 = .ok (some p)
      ∧ (TurnRun.iterate hooks env policy limit).run s
          = (TurnRun.conclude settled p.input p.stop.matchedOwners
              (applyRecoveryHookResult p.candidate p.hook p.input)).run s'
      ∧ (TurnRun.iterate noHooks env policy limit).run t
          = (TurnRun.conclude settled p'.input p'.stop.matchedOwners
              (applyRecoveryHookResult p'.candidate p'.hook p'.input)).run
              t' := by
  obtain ⟨hout, hst₁⟩ := attempt env h s t hst
  have hout := corresponds_eq.1 hout
  have hterm := (TurnRun.attempt_ensures hooks env s).2.2.2
  unfold TurnRun.iterate TurnRun.decisionPoint
  cases hs : (TurnRun.attempt hooks env).run s with
  | mk r s₁ =>
    cases ht : (TurnRun.attempt noHooks env).run t with
    | mk q t₁ =>
      rw [hs] at hout hst₁ hterm
      rw [ht] at hout hst₁
      dsimp only at hout hst₁ hterm
      subst hout
      cases r with
      | error e =>
        -- the attempt raised
        rw [run_bind_of_error hs, run_bind_of_error hs,
          run_bind_of_error ht]
        exact .inl ⟨fun p hp => (by cases hp), rfl, hst₁⟩
      | ok settled =>
        rw [run_bind_of_ok hs, run_bind_of_ok hs,
          run_bind_of_ok ht]
        unfold TurnRun.afterAttempt
        cases hcalls : settled.toolCalls.isEmpty with
        | false =>
          -- tool calls: nothing is decided by hooks
          obtain ⟨hafter, hst₂⟩ :=
            afterTools env h policy limit settled s₁ t₁ hst₁
          exact .inl ⟨fun p hp => (by cases hp), hafter, hst₂⟩
        | true =>
          simp only [if_true]
          obtain ⟨hphase, hst₂⟩ :=
            stopPhase env h policy settled s₁ t₁ hst₁
          have hsteady :=
            (TurnRun.stopPhase_ensures hooks env policy settled s₁).1
          cases hs₂ : (TurnRun.stopPhase hooks env policy settled).run
              s₁ with
          | mk r₂ s₂ =>
            cases ht₂ : (TurnRun.stopPhase noHooks env policy
                settled).run t₁ with
            | mk q₂ t₂ =>
              rw [hs₂] at hphase hst₂ hsteady
              rw [ht₂] at hphase hst₂
              cases r₂ with
              | error e =>
                cases q₂ with
                | ok p' => exact hphase.elim
                | error e' =>
                  rw [run_bind_of_error hs₂,
                    run_bind_of_error hs₂,
                    run_bind_of_error ht₂]
                  exact .inl ⟨fun p hp => (by cases hp),
                    hphase, hst₂⟩
              | ok p =>
                cases q₂ with
                | error e' => exact hphase.elim
                | ok p' =>
                  rw [run_bind_of_ok hs₂,
                    run_bind_of_ok hs₂,
                    run_bind_of_ok ht₂]
                  exact .inr ⟨settled, p, p', s₂, t₂, hphase,
                    hst₂, hsteady.terminal.trans hterm, rfl,
                    rfl, rfl⟩

end Alike

namespace TurnRun

variable (hooks : Hooks B M Q) (env : Collaborators W M Q)
  (policy : RecoveryPolicy)

/-- The iteration that starts here halts, if it halts, unobserved. -/
def Unobserved (s : TurnRun B W M Q) : Prop :=
  s.loop.terminal = none → ∀ p,
    ((decisionPoint hooks env policy).run s).1 = .ok (some p) → p.Unobserved

variable {hooks env policy}

variable {s : TurnRun B W M Q}

theorem step_of_terminal (limit : Nat) {terminal : TurnTerminal}
    (h : s.loop.terminal = some terminal) :
    step hooks env policy limit s = s := by
  unfold step
  rw [h]
  rfl

theorem step_alike (h : hooks.Observing) (limit : Nat)
    {t : TurnRun Unit W M Q} (hst : Alike s t)
    (hgood : s.Unobserved hooks env policy) :
    Alike (step hooks env policy limit s) (step noHooks env policy limit t) := by
  have hloop : s.loop = t.loop := hst
  cases hterm : s.loop.terminal with
  | some terminal =>
    rw [step_of_terminal limit hterm, step_of_terminal limit (hloop ▸ hterm)]
    exact hst
  | none =>
    have hboth : Method.Corresponds (fun _ _ => True)
          ((iterate hooks env policy limit).run s).1
          ((iterate noHooks env policy limit).run t).1
        ∧ Alike ((iterate hooks env policy limit).run s).2
          ((iterate noHooks env policy limit).run t).2 := by
      obtain ⟨-, hgo⟩ | ⟨settled, p, p', s', t', hphase, hst', -, hp, hs, ht⟩
        := Alike.iterate_cases h env policy limit hst
      · exact hgo
      · rw [hs, ht]
        exact Alike.conclude_unobserved hphase (hgood hterm p hp) settled
          s' t' hst'
    obtain ⟨hout, hst'⟩ := hboth
    unfold step
    rw [hterm, ← hloop, hterm]
    simp only [Option.isSome_none, Bool.false_eq_true, if_false]
    unfold Method.tryExcept
    dsimp only
    cases hs : (iterate hooks env policy limit).run s with
    | mk r s' =>
      cases ht : (iterate noHooks env policy limit).run t with
      | mk q t' =>
        rw [hs, ht] at hout hst'
        cases r with
        | ok a =>
          cases q with
          | ok b => exact hst'
          | error e => exact hout.elim
        | error e =>
          cases q with
          | ok b => exact hout.elim
          | error e' =>
            obtain rfl : e = e' := hout
            exact (Alike.failed e s' t' hst').2

theorem step_observed (h : hooks.Observing) (limit : Nat)
    {t : TurnRun Unit W M Q} (hst : Alike s t)
    (hbad : ¬s.Unobserved hooks env policy) :
    (step hooks env policy limit s).loop.terminal
      ≠ (step noHooks env policy limit t).loop.terminal := by
  have hloop : s.loop = t.loop := hst
  unfold Unobserved at hbad
  push Not at hbad
  obtain ⟨hterm, p, hp, hun⟩ := hbad
  obtain ⟨hno, -⟩ | ⟨settled, p₁, p', s', t', hphase, hst', hnone, hp₁, hs, ht⟩
    := Alike.iterate_cases h env policy limit hst
  · exact absurd hp (hno p)
  · have heq : p₁ = p := by
      rw [hp₁] at hp
      exact Option.some.inj (Except.ok.inj hp)
    subst heq
    have hdiff := Alike.conclude_observed hphase hun settled (s := s')
      (t := t') (hnone.trans hterm)
    unfold step
    rw [hterm, ← hloop, hterm]
    simp only [Option.isSome_none, Bool.false_eq_true, if_false]
    unfold Method.tryExcept
    dsimp only
    rw [hs, ht, conclude_run, conclude_run settled p'.input]
    exact hdiff

-- ============= the run

end TurnRun

def TurnStreamEvent.request? : TurnStreamEvent M Q → Option Q
  | .requestStart request => some request
  | _ => none

def TurnStreamEvent.message? : TurnStreamEvent M Q → Option M
  | .message m => some m
  | _ => none

structure SameSoFar (l l' : TurnLoopState W M Q) : Prop where
  requests : l.events.filterMap TurnStreamEvent.request?
    = l'.events.filterMap TurnStreamEvent.request?
  messages : l.events.filterMap TurnStreamEvent.message?
    = l'.events.filterMap TurnStreamEvent.message?
  terminal : l.terminal = l'.terminal

/-- Observers are transparent exactly where none has matched at a halt. -/
theorem TurnRun.transparent_iff (hooks : Hooks B M Q) (h : hooks.Observing)
    (env : Collaborators W M Q) (policy : RecoveryPolicy)
    (maxTurns : Option Nat) (loop : TurnLoopState W M Q) (bus : B) :
    (∀ n, SameSoFar
        (TurnRun.after hooks env policy (maxIterations maxTurns) n
          ⟨loop, bus⟩).loop
        (TurnRun.after noHooks env policy (maxIterations maxTurns) n
          ⟨loop, ()⟩).loop)
      ↔ ∀ n, (TurnRun.after hooks env policy (maxIterations maxTurns) n
          ⟨loop, bus⟩).Unobserved hooks env policy := by
  have hstart : Alike (⟨loop, bus⟩ : TurnRun B W M Q) ⟨loop, ()⟩ := rfl
  refine ⟨fun hsame => ?_, fun hgood n => ?_⟩
  · -- the two turns stay at the same point, so the first halt that is
    -- observed would tell them apart
    have halike : ∀ n, Alike
        (TurnRun.after hooks env policy (maxIterations maxTurns) n ⟨loop, bus⟩)
        (TurnRun.after noHooks env policy (maxIterations maxTurns) n
          ⟨loop, ()⟩)
        ∧ (TurnRun.after hooks env policy (maxIterations maxTurns) n
          ⟨loop, bus⟩).Unobserved hooks env policy := by
      intro n
      induction n with
      | zero =>
        refine ⟨hstart, ?_⟩
        by_contra hbad
        exact step_observed h _ hstart hbad (hsame 1).terminal
      | succ n ih =>
        have hnext := step_alike h (maxIterations maxTurns) ih.1 ih.2
        refine ⟨hnext, ?_⟩
        by_contra hbad
        exact step_observed h _ hnext hbad (hsame (n + 2)).terminal
    exact fun n => (halike n).2
  · have halike : Alike
        (TurnRun.after hooks env policy (maxIterations maxTurns) n ⟨loop, bus⟩)
        (TurnRun.after noHooks env policy (maxIterations maxTurns) n
          ⟨loop, ()⟩) := by
      induction n with
      | zero => exact hstart
      | succ n ih => exact step_alike h _ ih (hgood n)
    rw [show _ = _ from halike]
    exact ⟨rfl, rfl, rfl⟩

-- ==== a silent observer

namespace TurnRun

def auditing : Hooks Unit Unit Unit where
  dispatch
    | .recoveryDecision _ _ _ =>
      pure [{ owner := "audit", outcome := .returned [] }]
    | _ => pure []

theorem observing_auditing : auditing.Observing := by
  intro payload b
  cases payload with
  | recoveryDecision index input candidate =>
    refine ⟨_, _, rfl, fun call hcall => ?_⟩
    cases List.mem_singleton.1 hcall
    rfl
  | _ => exact ⟨_, _, rfl, fun call hcall => by cases hcall⟩

end TurnRun

/-- The model is done after one answer, and with the audit hook it is
asked a second time. -/
theorem TurnRun.audit_hook_resumes :
    TurnRun.auditing.Observing
      ∧ ¬SameSoFar
        (TurnRun.after TurnRun.auditing TurnRun.idle {} (maxIterations none) 2
          TurnRun.started).loop
        (TurnRun.after noHooks TurnRun.idle {} (maxIterations none) 2
          TurnRun.started).loop := by
  refine ⟨TurnRun.observing_auditing, fun hsame => ?_⟩
  have hlength := congrArg List.length hsame.requests
  revert hlength
  decide

theorem TurnRun.transparent_iff_auditing :
    (∀ n, SameSoFar
        (TurnRun.after TurnRun.auditing TurnRun.idle {} (maxIterations none) n
          ⟨TurnRun.started.loop, ()⟩).loop
        (TurnRun.after noHooks TurnRun.idle {} (maxIterations none) n
          ⟨TurnRun.started.loop, ()⟩).loop)
      ↔ ∀ n, (TurnRun.after TurnRun.auditing TurnRun.idle {} (maxIterations none) n
          ⟨TurnRun.started.loop, ()⟩).Unobserved TurnRun.auditing TurnRun.idle {} :=
  TurnRun.transparent_iff TurnRun.auditing TurnRun.observing_auditing TurnRun.idle {} none
    TurnRun.started.loop ()

end WeaveRuntime.TurnEngine
