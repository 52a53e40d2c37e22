/-
Which runs of the orchestrator lose a result.

An outcome is recorded from inside a task's body only, so a task that
ends on another way leaves its call without one. There are two such
ways (`KeepsResult` excludes them): the task was cancelled before its
first step, and an exception escaped the body past the boundary.

Losing is final: a task that is done without an outcome stays so
(`lost_stays`). That turns the one-step fact (`recorded_step`) into an
account of whole runs: where `finalize` returns, it returns one outcome
for each observed call, in replay order, exactly when no step of the run
lost one.
-/
import WeaveRuntime.Tools.Orchestration.Shape

namespace WeaveRuntime.Tools

open Lib

namespace OrchestratorState

variable {s s' : OrchestratorState}

-- ======== what is lost

/-- Every task that is done has its outcome. -/
def Recorded (s : OrchestratorState) : Prop :=
  ∀ (i : Nat) (t : ScheduledTask), s.scheduledTasks[i]? = some t →
    t.phase = .done → s.Settled t.call

/-- From a state that has lost nothing, a step loses nothing exactly
when it keeps results. -/
theorem recorded_step (hs : s.Coherent) (hrec : s.Recorded) {a : Action}
    (h : Effect s a s') : s'.Recorded ↔ s.KeepsResult a := by
  rcases effect_shape hs h with ⟨hext, hkeep⟩ | ⟨i, t, p, hmoves⟩
  · refine ⟨fun _ => hkeep, fun _ => ?_⟩
    intro j u hu hdone
    rcases hext.task_cases hu with ⟨v, hv, heq⟩ | hnew
    · obtain ⟨hcall, -, -, hphase⟩ := ScheduledTask.eq_of_uncancelled heq
      have hmem := (hs.mem_of_task hv).1
      rw [hcall]
      exact (hrec j v hv (by rw [← hphase, hdone])).congr
        (hext.outcome _ hmem) (hext.stage _ hmem)
    · rw [hdone] at hnew
      cases hnew
  · have hm := hmoves.move
    have ht := hmoves.task
    rw [← hmoves.settles]
    constructor
    · intro hrec' hp
      obtain ⟨u, hu, heq⟩ := hm.get_self ht
      obtain ⟨hcall, -, -, hphase⟩ := ScheduledTask.eq_of_uncancelled heq
      have hset := hrec' i u hu (by rw [hphase, hp])
      rwa [hcall] at hset
    · intro hset j u hu hdone
      rcases hm.task_cases ht hu with ⟨rfl, heq⟩ | ⟨hji, v, hv, heq⟩
      · obtain ⟨hcall, -, -, hphase⟩ := ScheduledTask.eq_of_uncancelled heq
        rw [hcall]
        exact hset (by rw [← hdone, hphase])
      · obtain ⟨hcall, -, -, hphase⟩ := ScheduledTask.eq_of_uncancelled heq
        obtain ⟨hidx, hid⟩ := hs.task_ne hji hv ht
        rw [hcall]
        exact (hrec j v hv (by rw [← hphase, hdone])).congr
          (hm.outcome_of_ne _ hidx) (hm.stage_of_ne _ hid)

theorem lost_stays (hs : s.Coherent) {a : Action} (h : Effect s a s')
    (hrec : s'.Recorded) : s.Recorded := by
  intro j v hv hdone
  rcases effect_shape hs h with ⟨hext, -⟩ | ⟨i, t, p, hmoves⟩
  · obtain ⟨u, hu, heq⟩ := hext.get hv
    obtain ⟨hcall, -, -, hphase⟩ := ScheduledTask.eq_of_uncancelled heq
    have hmem := (hs.mem_of_task hv).1
    have hset := hrec j u hu (by rw [hphase, hdone])
    rw [hcall] at hset
    exact hset.congr (hext.outcome _ hmem).symm (hext.stage _ hmem).symm
  · have hm := hmoves.move
    have ht := hmoves.task
    have hji : j ≠ i := by
      intro hji
      subst hji
      rw [ht] at hv
      cases hv
      exact hmoves.unfinished hdone
    obtain ⟨u, hu, heq⟩ := hm.get_of_ne hji hv
    obtain ⟨hcall, -, -, hphase⟩ := ScheduledTask.eq_of_uncancelled heq
    obtain ⟨hidx, hid⟩ := hs.task_ne hji hv ht
    have hset := hrec j u hu (by rw [hphase, hdone])
    rw [hcall] at hset
    exact hset.congr (hm.outcome_of_ne _ hidx).symm (hm.stage_of_ne _ hid).symm

theorem recorded_iff_takes {as : List Action}
    (hrun : orchestrator.run {} as = some s) :
    s.Recorded
      ↔ ∀ t a t', orchestrator.Takes {} as t a t' → t.KeepsResult a := by
  have hinit : Recorded {} := by
    intro i t ht
    simp at ht
  rw [← System.visits_iff_takes (P := Recorded) (I := Coherent)
    (fun u a u' hu hstep => coherent_step hu hstep)
    (fun u a u' hu hrec hstep =>
      recorded_step hu hrec (effect_of_step hu hstep))
    coherent_init hinit]
  constructor
  · intro hrec t ht
    obtain ⟨p, q, rfl, hp⟩ := ht
    obtain ⟨m, hm, hq⟩ := System.run_append_eq_some.1 hrun
    rw [hp] at hm
    cases hm
    have hcoh : t.Coherent := coherent_of_reachable ⟨p, hp⟩
    -- by induction on the rest of the run, backwards from its end
    clear hp hrun
    induction q generalizing t with
    | nil =>
      cases hq
      exact hrec
    | cons b q ih =>
      obtain ⟨u, hu, hq⟩ := System.run_cons_eq_some.1 hq
      exact lost_stays hcoh (effect_of_step hcoh hu)
        (ih u hq (coherent_step hcoh hu))
  · intro hall
    exact hall s (System.Visits.finish hrun)

-- ============ finalize

theorem Coherent.settled_of_outcome (hs : s.Coherent) {k : Nat}
    {o : ToolOutcome} (hk : s.outcomes.get? k = some o) :
    o.replayIndex = k ∧ o.resolvedCall.replayIndex = k
      ∧ o.resolvedCall ∈ s.resolvedCalls ∧ s.Settled o.resolvedCall := by
  obtain ⟨c, hc, rfl⟩ := hs.outcome k o hk
  have hset : s.Settled c := by
    by_cases hex : c.resolutionStatus = .executable
    · obtain ⟨i, t, ht, rfl⟩ := hs.task_of_mem hc hex
      have hok := hs.task i t ht
      have hopen : ∀ st, ¬ s.Unsettled t.call st := by
        intro st h
        rw [h.outcome] at hk
        cases hk
      unfold TaskOk at hok
      split at hok
      · exact absurd hok (hopen _)
      · exact absurd hok (hopen _)
      · exact absurd hok (hopen _)
      · rcases hok with h | h | h
        · exact h
        · exact absurd h (hopen _)
        · exact absurd h (hopen _)
    · exact hs.answered c hc hex
  obtain ⟨o', ho', hcall, hidx⟩ := hset.outcome
  rw [hk] at ho'
  cases ho'
  subst hcall
  exact ⟨hidx, rfl, hc, hset⟩

/-- The outcomes `finalize` walks. -/
def ordered (s : OrchestratorState) : List ToolOutcome :=
  s.sortedIndices.filterMap s.outcomes.get?

theorem mem_ordered {o : ToolOutcome} :
    o ∈ s.ordered ↔ ∃ k, s.outcomes.get? k = some o := by
  unfold ordered sortedIndices
  simp only [List.mem_filterMap, List.mem_insertionSort]
  constructor
  · intro h
    obtain ⟨k, -, hk⟩ := h
    exact ⟨k, hk⟩
  · intro h
    obtain ⟨k, hk⟩ := h
    exact ⟨k, Dict.mem_keys_iff.2 ⟨o, hk⟩, hk⟩

theorem Coherent.ordered_sorted (hs : s.Coherent) :
    s.ordered.Pairwise fun a b => a.replayIndex < b.replayIndex := by
  have hle : s.sortedIndices.Pairwise (· ≤ ·) :=
    List.pairwise_insertionSort _ _
  have hnd : s.sortedIndices.Nodup :=
    (List.perm_insertionSort _ _).nodup_iff.2 s.outcomes.nodup_keys
  have hlt : s.sortedIndices.Pairwise (· < ·) := by
    refine (hle.and hnd).imp ?_
    intro a b hab
    exact lt_of_le_of_ne hab.1 hab.2
  unfold ordered
  rw [List.pairwise_filterMap]
  refine hlt.imp ?_
  intro k l hkl a ha b hb
  rw [(hs.settled_of_outcome ha).1, (hs.settled_of_outcome hb).1]
  exact hkl

/-- Committing the replay of settled calls under distinct ids raises
nothing. -/
theorem replay_commits (outs : List ToolOutcome)
    (hids : outs.Pairwise fun a b =>
      a.resolvedCall.toolUseId ≠ b.resolvedCall.toolUseId)
    (hst : ∀ o ∈ outs,
      s.stage o.resolvedCall.toolUseId = some .terminalPendingReplay) :
    ∃ t, outs.foldlM (fun state outcome =>
      state.emitLifecycle (.replayCommitted outcome.resolvedCall.toolUseId
        outcome.replayIndex outcome.completionIndex outcome.status)) s
      = .ok t := by
  induction outs generalizing s with
  | nil => exact ⟨s, rfl⟩
  | cons o outs ih =>
    obtain ⟨hhead, htail⟩ := List.pairwise_cons.1 hids
    have hemit := emitLifecycle_of_accepts (s := s)
      (e := .replayCommitted o.resolvedCall.toolUseId o.replayIndex
        o.completionIndex o.status) (hst o (List.mem_cons_self ..))
    obtain ⟨t, ht⟩ := ih (s := s.afterEvent (.replayCommitted
      o.resolvedCall.toolUseId o.replayIndex o.completionIndex o.status))
      htail (by
        intro b hb
        refine (stage_afterEvent s _ _).trans ((if_neg ?_).trans
          (hst b (List.mem_cons_of_mem _ hb)))
        exact (hhead b hb).symm)
    refine ⟨t, ?_⟩
    rw [List.foldlM_cons, hemit]
    exact ht

/-- `finalize` raises nothing: it waits, or it returns the outcomes in
replay order. -/
theorem Coherent.finalize (hs : s.Coherent) :
    s.finalize = .error .disabled
      ∨ (s.scheduledTasks.all (·.phase = .done) = true
        ∧ ∃ t, s.finalize = .ok (s.ordered, t)) := by
  have hids : s.ordered.Pairwise fun a b =>
      a.resolvedCall.toolUseId ≠ b.resolvedCall.toolUseId := by
    refine List.Pairwise.imp_of_mem ?_ hs.ordered_sorted
    intro a b ha hb hlt
    obtain ⟨k, hk⟩ := mem_ordered.1 ha
    obtain ⟨l, hl⟩ := mem_ordered.1 hb
    obtain ⟨hak, hak', hamem, -⟩ := hs.settled_of_outcome hk
    obtain ⟨hbl, hbl', hbmem, -⟩ := hs.settled_of_outcome hl
    refine (hs.call_ne hamem hbmem ?_).2
    intro h
    rw [h] at hak'
    omega
  have hst : ∀ o ∈ s.ordered,
      s.stage o.resolvedCall.toolUseId = some .terminalPendingReplay := by
    intro o ho
    obtain ⟨k, hk⟩ := mem_ordered.1 ho
    exact (hs.settled_of_outcome hk).2.2.2.stage
  obtain ⟨t, ht⟩ := replay_commits s.ordered hids hst
  unfold OrchestratorState.finalize
  by_cases hd : s.pending.isSome ∨ !s.scheduledTasks.all (·.phase = .done)
  · exact Or.inl (if_pos hd)
  · rw [if_neg hd]
    refine Or.inr ⟨?_, t, ?_⟩
    · by_contra hnot
      exact hd (Or.inr (by simpa using hnot))
    · show Except.bind (s.ordered.foldlM _ s) _ = _
      rw [ht]
      rfl

theorem Coherent.complete_iff (hs : s.Coherent)
    (hdone : s.scheduledTasks.all (·.phase = .done) = true) :
    s.ordered.map (·.resolvedCall) = s.resolvedCalls ↔ s.Recorded := by
  have hdone' : ∀ (i : Nat) (t : ScheduledTask),
      s.scheduledTasks[i]? = some t → t.phase = .done := by
    intro i t ht
    have := List.all_eq_true.1 hdone t (List.mem_of_getElem? ht)
    simpa using this
  constructor
  · intro heq i t ht _
    have hmem := (hs.mem_of_task ht).1
    rw [← heq] at hmem
    obtain ⟨o, ho, hcall⟩ := List.mem_map.1 hmem
    obtain ⟨k, hk⟩ := mem_ordered.1 ho
    rw [← hcall]
    exact (hs.settled_of_outcome hk).2.2.2
  · intro hrec
    have hidx : ∀ o ∈ s.ordered,
        o.resolvedCall.replayIndex = o.replayIndex := by
      intro o ho
      obtain ⟨k, hk⟩ := mem_ordered.1 ho
      obtain ⟨h1, h2, -⟩ := hs.settled_of_outcome hk
      rw [h1, h2]
    have hsorted : (s.ordered.map (·.resolvedCall)).Pairwise fun a b =>
        a.replayIndex < b.replayIndex := by
      rw [List.pairwise_map]
      refine List.Pairwise.imp_of_mem ?_ hs.ordered_sorted
      intro a b ha hb hlt
      rw [hidx a ha, hidx b hb]
      exact hlt
    have hirr : Std.Irrefl fun a b : ResolvedToolCall =>
        a.replayIndex < b.replayIndex := ⟨fun a => Nat.lt_irrefl _⟩
    have hanti : Std.Antisymm fun a b : ResolvedToolCall =>
        a.replayIndex < b.replayIndex :=
      ⟨fun a b hab hba => absurd hab (Nat.lt_asymm hba)⟩
    refine hsorted.eq_of_mem_iff hs.sorted ?_
    intro c
    rw [List.mem_map]
    constructor
    · intro h
      obtain ⟨o, ho, rfl⟩ := h
      obtain ⟨k, hk⟩ := mem_ordered.1 ho
      exact (hs.settled_of_outcome hk).2.2.1
    · intro hc
      have hset : s.Settled c := by
        by_cases hex : c.resolutionStatus = .executable
        · obtain ⟨i, t, ht, rfl⟩ := hs.task_of_mem hc hex
          exact hrec i t ht (hdone' i t ht)
        · exact hs.answered c hc hex
      obtain ⟨o, ho, hcall, -⟩ := hset.outcome
      exact ⟨o, mem_ordered.2 ⟨_, ho⟩, hcall⟩

end OrchestratorState

section FixedRuns

/-! A call interrupted between its observation and its task's first step:
the model streams one tool call and the user interrupts at once. -/

def writeTool : Resolution :=
  { resolutionStatus := .executable, canonicalToolName := some "write"
    toolDefinition := some { name := "write" }
    resolvedSemantics := some { readOnly := false, concurrencySafe := false } }

def interruptedRun : List Action :=
  [.observeBegin "call-1" "write" "message-1", .observeResolved writeTool some,
    .interrupt "user", .firstStep 0 some]

def finishedRun : List Action :=
  [.observeBegin "call-1" "write" "message-1", .observeResolved writeTool some,
    .firstStep 0 some,
    .finish 0 { execute := .returns (.value (.str "ok")) } some]

end FixedRuns

end WeaveRuntime.Tools
