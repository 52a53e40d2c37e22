/-
Which call the result of an outcome names.

The result block of an outcome carries the call id of the RESULT, and a
tool may return a finished result of its own: nothing checks that it
answers the call that was made. Every other result is built for its call
(`settleRun_addressed_iff`).

What a step records is read off the step function here (`Produces`,
`step_outcomes`); the effects of `Orchestration.Effects` keep only whose
outcome it is.
-/
import WeaveRuntime.Tools.Orchestration.Cascade
import WeaveRuntime.Tools.Orchestration.Outcomes
import WeaveRuntime.Lib.Raise

namespace WeaveRuntime.Tools

open Lib

-- ========= one outcome

def ToolOutcome.Addressed (o : ToolOutcome) : Prop :=
  o.resultBlock.toolUseId = o.resolvedCall.toolUseId

/-- The tool returns a finished result for another call. -/
def Misaddresses (call : ResolvedToolCall) (run : ToolRun) : Prop :=
  ∃ r, run.execute = .returns (.result r) ∧ run.postHook = .proceeds
    ∧ r.callId ≠ call.toolUseId

variable {call : ResolvedToolCall} {result : ToolCallResult}

theorem classifyResult_callId {classified : ToolCallResult}
    (h : classifyResult result call = some classified) :
    classified.callId = result.callId := by
  unfold classifyResult at h
  split at h
  · cases h
    rfl
  · split_ifs at h
    · cases h
      rfl
    · cases h
      rfl
    · split at h
      · split at h
        · cases h
        · split_ifs at h
          · cases h
            rfl
          · cases h
            rfl
      · cases h
        rfl

theorem buildOutcome_callId {ck : String → Option String} {ci n : Nat}
    {o : ToolOutcome} (h : buildOutcome ck call result ci = (some o, n)) :
    o.resultBlock.toolUseId = result.callId := by
  unfold buildOutcome at h
  split at h
  · cases h
  · next classified hclass =>
    obtain ⟨ho, -⟩ := Prod.mk.inj h
    obtain ⟨updates, -, rfl⟩ := Option.map_eq_some_iff.1 ho
    exact classifyResult_callId hclass

theorem bareOutcome_addressed (call : ResolvedToolCall)
    (status : ToolCallStatus) (error : String) (ci : Nat) :
    (bareOutcome call status error ci).Addressed := rfl

theorem syntheticOutcome_addressed (call : ResolvedToolCall) (ci : Nat) :
    (syntheticOutcome call ci).Addressed := by
  unfold syntheticOutcome
  split
  · split
    · exact bareOutcome_addressed ..
    · exact bareOutcome_addressed ..
  · exact bareOutcome_addressed ..

theorem preflight_callId {reason : Option String}
    (h : preflight call reason = some result) :
    result.callId = call.toolUseId := by
  unfold preflight at h
  split at h
  · cases h
    rfl
  · dsimp only at h
    split_ifs at h
    · cases h
      rfl
    · cases h
      rfl

theorem failedResult_callId {run : ToolRun} {message : String}
    (h : failedResult call run message = .value result) :
    result.callId = call.toolUseId := by
  unfold failedResult at h
  split at h
  · cases h
  · cases h
  · cases h
    rfl

theorem executeResolvedToolCall_callId {run : ToolRun}
    (h : executeResolvedToolCall call run = .value result) :
    result.callId = call.toolUseId ↔ ¬ Misaddresses call run := by
  have hmade : ¬ (∃ r, run.execute = .returns (.result r)
      ∧ run.postHook = .proceeds) → result.callId = call.toolUseId →
      (result.callId = call.toolUseId ↔ ¬ Misaddresses call run) := by
    intro hnot hid
    refine iff_of_true hid fun hmis => hnot ?_
    obtain ⟨r, hr, hpost, -⟩ := hmis
    exact ⟨r, hr, hpost⟩
  unfold executeResolvedToolCall at h
  cases hexec : run.execute with
  | cancelled =>
    rw [hexec] at h
    cases h
    exact hmade (fun hr => by simp [hexec] at hr) rfl
  | raises message =>
    simp only [hexec] at h
    exact hmade (fun hr => by simp [hexec] at hr) (failedResult_callId h)
  | returns raw =>
    simp only [hexec] at h
    cases hpost : run.postHook with
    | cancelled =>
      rw [hpost] at h
      cases h
      exact hmade (fun hr => by simp [hpost] at hr) rfl
    | raises message =>
      simp only [hpost] at h
      exact hmade (fun hr => by simp [hpost] at hr)
        (failedResult_callId h)
    | blocks =>
      rw [hpost] at h
      cases h
      exact hmade (fun hr => by simp [hpost] at hr) rfl
    | proceeds =>
      rw [hpost] at h
      cases h
      cases raw with
      | execution succeeded value error =>
        exact hmade (fun hr => by simp [hexec] at hr) rfl
      | value v => exact hmade (fun hr => by simp [hexec] at hr) rfl
      | result r =>
        -- the tool's own result passes through as it is
        show r.callId = call.toolUseId ↔ _
        refine ⟨fun hid hmis => ?_, fun hmis => ?_⟩
        · obtain ⟨r', hr', -, hne⟩ := hmis
          rw [hexec] at hr'
          cases hr'
          exact hne hid
        · by_contra hne
          exact hmis ⟨r, hexec, hpost, hne⟩

/-- The outcome of a run names its call unless the tool returned the
result of another one. -/
theorem settleRun_addressed_iff {ck : String → Option String} {run : ToolRun}
    {ci n : Nat} {o : ToolOutcome}
    (h : settleRun ck call run ci = (some o, n)) :
    o.Addressed ↔ ¬ Misaddresses call run := by
  have hcall := (settleRun_eq_some ck h).1
  unfold settleRun at h
  cases hexec : executeResolvedToolCall call run with
  | value result =>
    rw [hexec] at h
    unfold ToolOutcome.Addressed
    rw [hcall, buildOutcome_callId h]
    exact executeResolvedToolCall_callId hexec
  | cancelledError =>
    rw [hexec] at h
    cases h
    refine iff_of_true rfl fun hmis => ?_
    obtain ⟨r, hr, hpost, -⟩ := hmis
    simp only [executeResolvedToolCall, hr, hpost] at hexec
    cases hexec
  | exception message =>
    rw [hexec] at h
    cases h

namespace OrchestratorState

variable {s s' : OrchestratorState}

-- ==== what a step records

/-- The outcome an action records, where it records one. -/
inductive Produces (s : OrchestratorState) : Action → ToolOutcome → Prop
  | built (a : Action) (o : ToolOutcome) : o.Addressed →
      (∀ i run ck, a ≠ .finish i run ck) → Produces s a o
  | ran (i : Nat) (run : ToolRun) (ck : String → Option String)
      (t : ScheduledTask) (o : ToolOutcome) (ci n : Nat) :
      s.scheduledTasks[i]? = some t →
      settleRun ck t.call run ci = (some o, n) →
      Produces s (.finish i run ck) o

def Records (s s' : OrchestratorState) (P : ToolOutcome → Prop) : Prop :=
  s'.outcomes = s.outcomes
    ∨ ∃ o, s'.outcomes = s.outcomes.insert o.replayIndex o ∧ P o

theorem outcomes_emitLifecycle {e : ToolLifecycleEvent}
    (h : s.emitLifecycle e = .ok s') : s'.outcomes = s.outcomes := by
  unfold emitLifecycle at h
  split at h
  · cases h
  · cases h
    rfl

theorem outcomes_recordOutcome {o : ToolOutcome}
    (h : s.recordOutcome o = .ok s') :
    s'.outcomes = s.outcomes.insert o.replayIndex o :=
  outcomes_emitLifecycle h

theorem outcomes_maybeCascadeFailure (o : ToolOutcome) :
    (s.maybeCascadeFailure o).outcomes = s.outcomes := by
  unfold maybeCascadeFailure
  split
  · rfl
  · dsimp only
    split_ifs
    · rfl
    · rfl
    · rfl
    · rfl

variable {a : Action} {call : ResolvedToolCall}

theorem records_settle {i : Nat} {settled : Option ToolOutcome × Nat}
    (h : s.settle i call settled = .ok s') :
    Records s s' fun o => settled.1 = some o := by
  unfold settle at h
  dsimp only at h
  cases hset : settled.1 with
  | none =>
    rw [hset] at h
    cases h
    exact Or.inl rfl
  | some o =>
    rw [hset] at h
    obtain ⟨recorded, hrec, hrest⟩ := bind_eq_ok.1 h
    cases hrest
    have hins := outcomes_recordOutcome hrec
    exact Or.inr ⟨o, (outcomes_maybeCascadeFailure o).trans hins, rfl⟩

theorem records_startCall {i : Nat} {ck : String → Option String}
    (h : s.startCall i call ck = .ok s') :
    Records s s' ToolOutcome.Addressed := by
  obtain ⟨started, hemit, henter⟩ := bind_eq_ok.1 h
  have hemitted := outcomes_emitLifecycle hemit
  have hout : started.outcomes = s.outcomes := hemitted
  unfold enterBody at henter
  cases hpre : preflight call started.interruptReason with
  | none =>
    rw [hpre] at henter
    cases henter
    exact Or.inl hout
  | some result =>
    rw [hpre] at henter
    rcases records_settle henter with hsame | ⟨o, hins, ho⟩
    · exact Or.inl (hsame.trans hout)
    · refine Or.inr ⟨o, by rw [hins, hout], ?_⟩
      have hpair : buildOutcome ck call result started.completionIndex
          = (some o, (buildOutcome ck call result
              started.completionIndex).2) := by
        rw [← ho]
      unfold ToolOutcome.Addressed
      rw [buildOutcome_callId hpair, (buildOutcome_eq_some ck hpair).1,
        preflight_callId hpre]

theorem Records.mono {P Q : ToolOutcome → Prop} (h : Records s s' P)
    (hPQ : ∀ o, P o → Q o) : Records s s' Q := by
  rcases h with hsame | ⟨o, hins, ho⟩
  · exact Or.inl hsame
  · exact Or.inr ⟨o, hins, hPQ o ho⟩

theorem records_observeLane (h : s.observeLane call = .ok s') :
    Records s s' ToolOutcome.Addressed := by
  obtain ⟨completed, hemit, hrest⟩ := bind_eq_ok.1 h
  have hemitted := outcomes_emitLifecycle hemit
  have hout : completed.outcomes = s.outcomes := hemitted
  by_cases hex : call.resolutionStatus ≠ .executable
  · rw [if_pos hex] at hrest
    have hins := outcomes_recordOutcome hrest
    refine Or.inr ⟨syntheticOutcome call completed.completionIndex, ?_,
      syntheticOutcome_addressed _ _⟩
    rw [hins, ← hout]
  · rw [if_neg hex] at hrest
    obtain ⟨queued, hqueue, hlast⟩ := bind_eq_ok.1 hrest
    cases hlast
    exact Or.inl ((outcomes_emitLifecycle hqueue).trans hout)

theorem step_outcomes (h : s.step? a = .ok s') :
    Records s s' (s.Produces a) := by
  cases a with
  | observeBegin id name message =>
    simp only [step?] at h
    split at h
    · cases h
    · obtain ⟨observed, hobs, hrest⟩ := bind_eq_ok.1 h
      have hfirst := outcomes_emitLifecycle hobs
      exact Or.inl ((outcomes_emitLifecycle hrest).trans hfirst)
  | observeResolved r ck =>
    simp only [step?] at h
    split at h
    · cases h
    · split at h
      · cases h
        exact Or.inl rfl
      · exact (records_observeLane h).mono fun o ho =>
          .built _ o ho (by simp)
  | observeFailed =>
    simp only [step?] at h
    split at h
    · cases h
      exact Or.inl rfl
    · cases h
  | firstStep i ck =>
    simp only [step?] at h
    split at h
    · cases h
    · split_ifs at h
      · cases h
        exact Or.inl rfl
      · exact (records_startCall h).mono fun o ho =>
          .built _ o ho (by simp)
      · cases h
        exact Or.inl rfl
  | resume i ck =>
    simp only [step?] at h
    split at h
    · cases h
    · split_ifs at h
      · refine (records_settle h).mono fun o ho => .built _ o ?_ (by simp)
        cases ho
        exact bareOutcome_addressed ..
      · exact (records_startCall h).mono fun o ho =>
          .built _ o ho (by simp)
  | finish i run ck =>
    simp only [step?] at h
    split at h
    · cases h
    · next t ht =>
      split_ifs at h
      refine (records_settle h).mono fun o ho => ?_
      exact .ran i run ck t o s.completionIndex _ ht
        (by rw [← ho])
  | progress i progressId message =>
    simp only [step?] at h
    split at h
    · cases h
    · split at h
      · cases h
        exact Or.inl rfl
      · next hemit =>
        cases h
        exact Or.inl (outcomes_emitLifecycle hemit)
  | _ =>
    cases h
    exact Or.inl rfl

-- ========== whole runs

/-- Every recorded outcome names its call. -/
def Addressed (s : OrchestratorState) : Prop :=
  ∀ k o, s.outcomes.get? k = some o → o.Addressed

/-- The step records no result of another call. -/
def KeepsAddress (s : OrchestratorState) : Action → Prop
  | .finish i run ck => ∀ t, s.scheduledTasks[i]? = some t →
      ¬ (Misaddresses t.call run ∧ ¬ Escapes ck t.call run)
  | _ => True

theorem outcome_stays (hs : s.Coherent) (h : Effect s a s') {k : Nat}
    {o : ToolOutcome} (hk : s.outcomes.get? k = some o) :
    s'.outcomes.get? k = some o := by
  obtain ⟨-, hidx, hmem, -⟩ := hs.settled_of_outcome hk
  rcases effect_shape hs h with ⟨hext, -⟩ | ⟨i, t, p, hmoves⟩
  · rw [← hidx, hext.outcome _ hmem, hidx]
    exact hk
  · by_cases hkt : k = t.call.replayIndex
    · -- an unfinished call has no outcome yet
      have hok := hs.task i t hmoves.task
      have hun := hmoves.unfinished
      unfold TaskOk at hok
      have hopen : ∃ st, s.Unsettled t.call st := by
        cases hp : t.phase with
        | done => exact absurd hp hun
        | _ => exact ⟨_, by rw [hp] at hok; exact hok⟩
      obtain ⟨st, hst⟩ := hopen
      rw [hkt, hst.outcome] at hk
      cases hk
    · rw [hmoves.move.outcome_of_ne k hkt]
      exact hk

/-- From a state whose outcomes name their calls, a step keeps that
exactly when it records no result of another call. -/
theorem addressed_step (hs : s.Coherent) (hadd : s.Addressed)
    (h : orchestrator.step s a = some s') :
    s'.Addressed ↔ s.KeepsAddress a := by
  have heff := effect_of_step hs h
  have hok : s.step? a = .ok s' := by
    have h : (s.step? a).toOption = some s' := h
    cases hstep : s.step? a with
    | error e =>
      rw [hstep] at h
      cases h
    | ok t =>
      rw [hstep] at h
      cases h
      rfl
  have hnew : ∀ o, s'.outcomes = s.outcomes.insert o.replayIndex o →
      (s'.Addressed ↔ o.Addressed) := by
    intro o hins
    refine ⟨fun hall => hall o.replayIndex o ?_, fun ho k u hk => ?_⟩
    · rw [hins, Dict.get?_insert_self]
    · rw [hins, Dict.get?_insert] at hk
      split_ifs at hk
      · cases hk
        exact ho
      · exact hadd k u hk
  by_cases hfin : ∃ i run ck, a = .finish i run ck
  · obtain ⟨i, run, ck, rfl⟩ := hfin
    have htask : ∃ t, s.scheduledTasks[i]? = some t := by
      cases ht : s.scheduledTasks[i]? with
      | none => simp [step?, ht] at hok
      | some t => exact ⟨t, rfl⟩
    obtain ⟨t, ht⟩ := htask
    have hrun : t.phase = .running ∧ s.settle i t.call
        (settleRun ck t.call run s.completionIndex) = .ok s' := by
      simp only [step?, ht] at hok
      split_ifs at hok with hp
      exact ⟨by simpa using hp, hok⟩
    have hkeeps : s.KeepsAddress (.finish i run ck)
        ↔ ¬ (Misaddresses t.call run ∧ ¬ Escapes ck t.call run) := by
      refine ⟨fun hk => hk t ht, fun hk u hu => ?_⟩
      rw [ht] at hu
      cases hu
      exact hk
    rw [hkeeps]
    cases hset : settleRun ck t.call run s.completionIndex with
    | mk o? n =>
      rw [hset] at hrun
      cases o? with
      | none =>
        have hesc : Escapes ck t.call run :=
          (settleRun_eq_none_iff ck).1 (by rw [hset])
        have hsame : s'.outcomes = s.outcomes := by
          obtain ⟨-, hsettle⟩ := hrun
          cases hsettle
          rfl
        refine iff_of_true ?_ fun hmis => hmis.2 hesc
        intro k o hk
        rw [hsame] at hk
        exact hadd k o hk
      | some o =>
        have hesc : ¬ Escapes ck t.call run := by
          rw [← settleRun_eq_none_iff ck (n := s.completionIndex), hset]
          simp
        have hins : s'.outcomes = s.outcomes.insert o.replayIndex o := by
          rcases records_settle hrun.2 with hsame | ⟨u, hins, hu⟩
          · -- the outcome is there afterwards
            obtain ⟨recorded, hrec, hrest⟩ := bind_eq_ok.1 hrun.2
            cases hrest
            have hins := outcomes_recordOutcome hrec
            exact (outcomes_maybeCascadeFailure o).trans hins
          · cases hu
            exact hins
        rw [hnew o hins, settleRun_addressed_iff hset]
        exact ⟨fun hmis hboth => hmis hboth.1, fun hboth hmis =>
          hboth ⟨hmis, hesc⟩⟩
  · have hkeeps : s.KeepsAddress a := by
      cases a with
      | finish i run ck => exact absurd ⟨i, run, ck, rfl⟩ hfin
      | _ => exact trivial
    refine iff_of_true ?_ hkeeps
    rcases step_outcomes hok with hsame | ⟨o, hins, hprod⟩
    · intro k o hk
      rw [hsame] at hk
      exact hadd k o hk
    · refine (hnew o hins).2 ?_
      cases hprod with
      | built _ _ ho _ => exact ho
      | ran i run ck _ _ _ _ _ _ => exact absurd ⟨i, run, ck, rfl⟩ hfin

theorem addressed_back (hs : s.Coherent) (h : Effect s a s')
    (hadd : s'.Addressed) : s.Addressed :=
  fun k o hk => hadd k o (outcome_stays hs h hk)

-- ==== which calls are observed

def observedIds (s : OrchestratorState) : List String :=
  s.resolvedCalls.map (·.toolUseId)
    ++ s.pending.toList.map (·.toolUseId)

theorem observedIds_observe (hs : s.Coherent) {id name message : String}
    (h : orchestrator.step s (.observeBegin id name message) = some s') :
    s.stage id = none ∧ s'.observedIds = s.observedIds ++ [id]
      ∧ ∀ x, s'.stage x ≠ none → x = id ∨ s.stage x ≠ none := by
  cases effect_of_step hs h with
  | observed _ _ _ hp hfresh =>
    refine ⟨hfresh, ?_, fun x hx => ?_⟩
    · simp [observedIds, observe, afterEvent, hp]
    · rw [stage_observe] at hx
      by_cases hid : x = id
      · exact Or.inl hid
      · rw [if_neg hid] at hx
        exact Or.inr hx
  | refused _ _ _ _ _ _ _ hlic => cases hlic
  | started _ _ _ _ hbeg => cases hbeg.licensed

theorem observedIds_resolved (hs : s.Coherent) {r : Resolution}
    {ck : String → Option String} {e : ToolCallEnvelope}
    (hp : s.pending = some e)
    (hlane : deriveLane ck (r.resolvedCall e none) ≠ none)
    (h : orchestrator.step s (.observeResolved r ck) = some s') :
    s'.observedIds = s.observedIds ∧ s'.pending = none
      ∧ ∀ x, s'.stage x ≠ none → s.stage x ≠ none := by
  have hst := (hs.pending e hp).1
  have hstages : ∀ (o : OrchestratorState) (st : ToolLifecycleStage),
      (∀ x, o.stage x = if x = e.toolUseId then some st else s.stage x) →
      ∀ x, o.stage x ≠ none → s.stage x ≠ none := by
    intro o st ho x hx
    by_cases hid : x = e.toolUseId
    · rw [hid, hst]
      simp
    · rw [ho, if_neg hid] at hx
      exact hx
  cases hd : deriveLane ck (r.resolvedCall e none) with
  | none => exact absurd hd hlane
  | some lane =>
    have hrun : s.step? (.observeResolved r ck)
        = s.observeLane (r.resolvedCall e lane) := by
      simp only [step?, hp, hd]
    have hst' : s.stage (r.resolvedCall e lane).toolUseId
        = some .resolving := hst
    rw [observeLane_of_resolving hst'] at hrun
    have hs' : (s.step? (.observeResolved r ck)).toOption = some s' := h
    rw [hrun] at hs'
    cases hs'
    split_ifs
    · refine ⟨?_, rfl, hstages _ _ fun x => stage_schedule s _ x⟩
      simp [observedIds, hp, schedule, resolve, afterEvent,
        Resolution.resolvedCall, ResolvedToolCall.toolUseId]
    · refine ⟨?_, rfl, hstages _ _ fun x => stage_answer s _ x⟩
      simp [observedIds, hp, answer, record, resolve, afterEvent,
        Resolution.resolvedCall, ResolvedToolCall.toolUseId]

theorem observed_of_task (hs : s.Coherent)
    (ha : (∀ id name message, a ≠ .observeBegin id name message)
      ∧ (∀ r ck, a ≠ .observeResolved r ck) ∧ a ≠ .observeFailed)
    (h : Effect s a s') :
    s'.resolvedCalls = s.resolvedCalls ∧ s'.pending = s.pending
      ∧ ∀ x, s'.stage x ≠ none → s.stage x ≠ none := by
  have hmoved : ∀ {i : Nat} {t : ScheduledTask} {p : TaskPhase},
      s.scheduledTasks[i]? = some t → TaskMove s s' i t p →
      s'.resolvedCalls = s.resolvedCalls ∧ s'.pending = s.pending
        ∧ ∀ x, s'.stage x ≠ none → s.stage x ≠ none := by
    intro i t p ht hm
    refine ⟨hm.resolvedCalls, hm.pending, fun x hx => ?_⟩
    by_cases hid : x = t.call.toolUseId
    · rw [hid]
      exact hs.stage_ne_none (hs.mem_of_task ht).1
    · rw [hm.stage_of_ne x hid] at hx
      exact hx
  rcases effect_shape hs h with ⟨hext, -⟩ | ⟨i, t, p, hmoves⟩
  · cases h with
    | observed id name message => exact absurd rfl (ha.1 id name message)
    | unresolved => exact absurd rfl ha.2.2
    | laneless r ck => exact absurd rfl (ha.2.1 r ck)
    | answered r ck => exact absurd rfl (ha.2.1 r ck)
    | scheduled r ck => exact absurd rfl (ha.2.1 r ck)
    | dropped i t ck ht => exact hmoved ht (taskMove_setPhase i t .done _)
    | parked i t ck ht => exact hmoved ht (taskMove_setPhase i t .waiting _)
    | started a i t ht => exact hmoved ht (taskMove_started i t)
    | refused a i t o n ht _ _ _ hcall hidx =>
      exact hmoved ht (taskMove_close i t o n hcall hidx).after_started
    | cancelled i t ck o n ht _ _ _ hcall hidx =>
      exact hmoved ht (taskMove_close i t o n hcall hidx)
    | finished i t run ck o n ht _ _ hcall hidx =>
      exact hmoved ht (taskMove_close i t o n hcall hidx)
    | escaped i t run ck n ht => exact hmoved ht (taskMove_setPhase i t .done n)
    | progressed i t progressId message ht hst =>
      refine ⟨rfl, rfl, fun x hx => ?_⟩
      by_cases hid : x = t.call.toolUseId
      · rw [hid, hst]
        simp
      · have hsame := (stage_afterEvent s (.progressEmitted t.call.toolUseId
          t.call.replayIndex progressId message) x).trans (if_neg hid)
        rwa [hsame] at hx
    | unheard => exact ⟨rfl, rfl, fun _ hx => hx⟩
    | interrupted reason => exact ⟨rfl, rfl, fun _ hx => hx⟩
    | requested reason => exact ⟨rfl, rfl, fun _ hx => hx⟩
  · exact hmoved hmoves.task hmoves.move

/-- What a run has come to stays: an outcome is final, and a task keeps its
place and its call; once done it stays done, and a request to cancel it is
not taken back. -/
theorem history_kept {as : List Action} {u v : OrchestratorState}
    (h : orchestrator.Passes {} as u v) :
    (∀ k o, u.outcomes.get? k = some o → v.outcomes.get? k = some o)
      ∧ ∀ (i : Nat) (t : ScheduledTask), u.scheduledTasks[i]? = some t →
        ∃ w, v.scheduledTasks[i]? = some w ∧ w.call = t.call
          ∧ (t.phase = .done → w.phase = .done)
          ∧ t.numCancelsRequested ≤ w.numCancelsRequested := by
  obtain ⟨p, q, r, -, hp, hq⟩ := h
  have hcoherent : u.Coherent := coherent_of_reachable ⟨p, hp⟩
  refine ⟨fun k o hk => ?_, fun i t ht => ?_⟩
  · exact (System.run_invariant
      (I := fun x => x.Coherent ∧ x.outcomes.get? k = some o)
      (fun x a x' hx hstep => ⟨coherent_step hx.1 hstep,
        outcome_stays hx.1 (effect_of_step hx.1 hstep) hx.2⟩)
      ⟨hcoherent, hk⟩ hq).2
  · refine (System.run_invariant (I := fun x => x.Coherent
      ∧ ∃ w, x.scheduledTasks[i]? = some w ∧ w.call = t.call
        ∧ (t.phase = .done → w.phase = .done)
        ∧ t.numCancelsRequested ≤ w.numCancelsRequested)
      (fun x a x' hx hstep => ⟨coherent_step hx.1 hstep, ?_⟩)
      ⟨hcoherent, t, ht, rfl, id, Nat.le_refl _⟩ hq).2
    obtain ⟨hx, w, hw, hcall, hdone, hle⟩ := hx
    obtain ⟨w', hw', hcall', hdone', hle'⟩ :=
      task_goes_on hx (effect_of_step hx hstep) hw
    exact ⟨w', hw', hcall'.trans hcall, hdone' ∘ hdone, hle.trans hle'⟩

/-- A call that has finished, and the interruption after it. -/
theorem history_kept_finished : ∃ u v o,
    orchestrator.Passes {} (finishedRun ++ [.interrupt "user"]) u v
      ∧ u.outcomes.get? 0 = some o ∧ v.outcomes.get? 0 = some o := by
  have hview : (orchestrator.run {} finishedRun).any (fun u =>
      (u.outcomes.get? 0).isSome
        && (orchestrator.step u (.interrupt "user")).isSome) = true := by
    decide
  obtain ⟨u, hrun, hends⟩ := (Option.any_eq_true _ _).1 hview
  obtain ⟨ho, hv⟩ := Bool.and_eq_true_iff.1 hends
  obtain ⟨o, ho⟩ := Option.isSome_iff_exists.1 ho
  obtain ⟨v, hv⟩ := Option.isSome_iff_exists.1 hv
  have hpass : orchestrator.Passes {} (finishedRun ++ [.interrupt "user"])
      u v := System.Takes.passes ⟨_, [], rfl, hrun, hv⟩
  exact ⟨u, v, o, hpass, ho, (history_kept hpass).1 0 o ho⟩

end OrchestratorState

end WeaveRuntime.Tools
