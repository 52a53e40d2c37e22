/-
The orchestrator's invariant, and that its own lifecycle events never
raise.

`Coherent` ties the four dictionaries together: the lifecycle stage of a
call, the outcome recorded for it and the phase of its task tell one
story, and replay indices follow the order of observation. Each clause
is about one call, and a step moves one call (`TaskMove`), so
preservation is one lemma (`Coherent.move`) and a case for each of the
few effects that are not moves.

A coherent state is what makes every event fit: `step_effect` runs each
action from a coherent state and finds it disabled, an observation of an
id seen before, or an `Effect`. A raise is not among them.
-/
import Mathlib.Data.List.Pairwise
import WeaveRuntime.Tools.Orchestration.Effects

namespace WeaveRuntime.Tools

open Lib

namespace OrchestratorState

-- ============ one call

/-- A call whose outcome is recorded. -/
structure Settled (s : OrchestratorState) (c : ResolvedToolCall) : Prop where
  outcome : ∃ o, s.outcomes.get? c.replayIndex = some o
    ∧ o.resolvedCall = c ∧ o.replayIndex = c.replayIndex
  stage : s.stage c.toolUseId = some .terminalPendingReplay

structure Unsettled (s : OrchestratorState) (c : ResolvedToolCall)
    (stage : ToolLifecycleStage) : Prop where
  outcome : s.outcomes.get? c.replayIndex = none
  stage : s.stage c.toolUseId = some stage

/-- What the phase of a task says about its call. A task that is done
without an outcome has lost its call. -/
def TaskOk (s : OrchestratorState) (t : ScheduledTask) : Prop :=
  match t.phase with
  | .created => s.Unsettled t.call .queued
  | .waiting => s.Unsettled t.call .queued
  | .running => s.Unsettled t.call .running
  | .done => s.Settled t.call ∨ s.Unsettled t.call .queued
      ∨ s.Unsettled t.call .running

structure Coherent (s : OrchestratorState) : Prop where
  sorted : s.resolvedCalls.Pairwise fun c d => c.replayIndex < d.replayIndex
  ids : s.resolvedCalls.Pairwise fun c d => c.toolUseId ≠ d.toolUseId
  bound : ∀ c ∈ s.resolvedCalls, c.replayIndex < s.observedCount
  pending : ∀ e, s.pending = some e →
    s.stage e.toolUseId = some .resolving
      ∧ e.sequenceIndex < s.observedCount
      ∧ ∀ c ∈ s.resolvedCalls, c.replayIndex < e.sequenceIndex
  scheduled : s.scheduledTasks.map (·.call)
    = s.resolvedCalls.filter fun c => c.resolutionStatus = .executable
  answered : ∀ c ∈ s.resolvedCalls, c.resolutionStatus ≠ .executable →
    s.Settled c
  task : ∀ (i : Nat) (t : ScheduledTask), s.scheduledTasks[i]? = some t →
    s.TaskOk t
  outcome : ∀ (k : Nat) (o : ToolOutcome), s.outcomes.get? k = some o →
    ∃ c ∈ s.resolvedCalls, c.replayIndex = k

theorem coherent_init : Coherent {} := by
  constructor
  · exact List.Pairwise.nil
  · exact List.Pairwise.nil
  · intro c hc
    cases hc
  · intro e he
    cases he
  · rfl
  · intro c hc
    cases hc
  · intro i t ht
    simp at ht
  · intro k o hk
    simp at hk

-- ====== first readings

section Readings

variable {s s' : OrchestratorState}

theorem Settled.congr {c : ResolvedToolCall} (h : s.Settled c)
    (ho : s'.outcomes.get? c.replayIndex = s.outcomes.get? c.replayIndex)
    (hs : s'.stage c.toolUseId = s.stage c.toolUseId) : s'.Settled c := by
  obtain ⟨o, hget, hcall⟩ := h.outcome
  exact ⟨⟨o, by rw [ho, hget], hcall⟩, by rw [hs, h.stage]⟩

theorem Unsettled.congr {c : ResolvedToolCall} {st : ToolLifecycleStage}
    (h : s.Unsettled c st)
    (ho : s'.outcomes.get? c.replayIndex = s.outcomes.get? c.replayIndex)
    (hs : s'.stage c.toolUseId = s.stage c.toolUseId) : s'.Unsettled c st :=
  ⟨by rw [ho, h.outcome], by rw [hs, h.stage]⟩

theorem TaskOk.congr {t u : ScheduledTask} (h : s.TaskOk t)
    (hcall : u.call = t.call) (hphase : u.phase = t.phase)
    (ho : s'.outcomes.get? t.call.replayIndex
      = s.outcomes.get? t.call.replayIndex)
    (hs : s'.stage t.call.toolUseId = s.stage t.call.toolUseId) :
    s'.TaskOk u := by
  unfold TaskOk at h ⊢
  rw [hcall, hphase]
  cases hp : t.phase with
  | done =>
    rw [hp] at h
    rcases h with h | h | h
    · exact Or.inl (h.congr ho hs)
    · exact Or.inr (Or.inl (h.congr ho hs))
    · exact Or.inr (Or.inr (h.congr ho hs))
  | _ =>
    rw [hp] at h
    exact h.congr ho hs

theorem TaskOk.stage_cases {t : ScheduledTask} (h : s.TaskOk t) :
    s.stage t.call.toolUseId = some .queued
      ∨ s.stage t.call.toolUseId = some .running
      ∨ s.stage t.call.toolUseId = some .terminalPendingReplay := by
  unfold TaskOk at h
  cases hp : t.phase with
  | running =>
    rw [hp] at h
    exact Or.inr (Or.inl h.stage)
  | done =>
    rw [hp] at h
    rcases h with h | h | h
    · exact Or.inr (Or.inr h.stage)
    · exact Or.inl h.stage
    · exact Or.inr (Or.inl h.stage)
  | _ =>
    rw [hp] at h
    exact Or.inl h.stage

namespace Coherent

variable (hs : s.Coherent)

include hs

variable {c : ResolvedToolCall} {t : ScheduledTask}

theorem mem_of_task {i : Nat} (ht : s.scheduledTasks[i]? = some t) :
    t.call ∈ s.resolvedCalls ∧ t.call.resolutionStatus = .executable := by
  have hmem : t.call ∈ s.scheduledTasks.map (·.call) :=
    List.mem_map_of_mem (List.mem_of_getElem? ht)
  rw [hs.scheduled, List.mem_filter] at hmem
  exact ⟨hmem.1, by simpa using hmem.2⟩

theorem task_of_mem (hc : c ∈ s.resolvedCalls)
    (hex : c.resolutionStatus = .executable) :
    ∃ (i : Nat) (t : ScheduledTask), s.scheduledTasks[i]? = some t
      ∧ t.call = c := by
  have hmem : c ∈ s.scheduledTasks.map (·.call) := by
    rw [hs.scheduled, List.mem_filter]
    exact ⟨hc, by simpa using hex⟩
  obtain ⟨t, ht, rfl⟩ := List.mem_map.1 hmem
  obtain ⟨i, hi⟩ := List.mem_iff_getElem?.1 ht
  exact ⟨i, t, hi, rfl⟩

theorem task_order {i j : Nat} {u : ScheduledTask} (hij : i < j)
    (ht : s.scheduledTasks[i]? = some t)
    (hu : s.scheduledTasks[j]? = some u) :
    t.call.replayIndex < u.call.replayIndex
      ∧ t.call.toolUseId ≠ u.call.toolUseId := by
  obtain ⟨hi, rfl⟩ := List.getElem?_eq_some_iff.1 ht
  obtain ⟨hj, rfl⟩ := List.getElem?_eq_some_iff.1 hu
  have hpair : (s.scheduledTasks.map (·.call)).Pairwise fun c d =>
      c.replayIndex < d.replayIndex ∧ c.toolUseId ≠ d.toolUseId := by
    rw [hs.scheduled]
    exact (hs.sorted.and hs.ids).filter _
  rw [List.pairwise_map] at hpair
  exact List.pairwise_iff_getElem.1 hpair i j hi hj hij

theorem task_ne {i j : Nat} {u : ScheduledTask} (hij : i ≠ j)
    (ht : s.scheduledTasks[i]? = some t)
    (hu : s.scheduledTasks[j]? = some u) :
    t.call.replayIndex ≠ u.call.replayIndex
      ∧ t.call.toolUseId ≠ u.call.toolUseId := by
  rcases Nat.lt_or_gt_of_ne hij with h | h
  · obtain ⟨hr, hid⟩ := hs.task_order h ht hu
    exact ⟨by omega, hid⟩
  · obtain ⟨hr, hid⟩ := hs.task_order h hu ht
    exact ⟨by omega, hid.symm⟩

theorem call_ne {d : ResolvedToolCall} (hc : c ∈ s.resolvedCalls)
    (hd : d ∈ s.resolvedCalls) (hne : c ≠ d) :
    c.replayIndex ≠ d.replayIndex ∧ c.toolUseId ≠ d.toolUseId := by
  have : Std.Symm fun a b : ResolvedToolCall =>
      a.replayIndex ≠ b.replayIndex ∧ a.toolUseId ≠ b.toolUseId :=
    ⟨fun a b h => ⟨h.1.symm, h.2.symm⟩⟩
  have hpair : s.resolvedCalls.Pairwise fun a b =>
      a.replayIndex ≠ b.replayIndex ∧ a.toolUseId ≠ b.toolUseId := by
    refine (hs.sorted.and hs.ids).imp ?_
    intro a b hab
    exact ⟨by omega, hab.2⟩
  exact hpair.forall hc hd hne

theorem stage_ne_none (hc : c ∈ s.resolvedCalls) :
    s.stage c.toolUseId ≠ none := by
  by_cases hex : c.resolutionStatus = .executable
  · obtain ⟨i, t, ht, rfl⟩ := hs.task_of_mem hc hex
    rcases (hs.task i t ht).stage_cases with h | h | h
    · simp [h]
    · simp [h]
    · simp [h]
  · simp [(hs.answered c hc hex).stage]

end Coherent

end Readings

-- ==== moves keep coherence

section Preservation

variable {s s' : OrchestratorState}

theorem Coherent.congr (hs : s.Coherent)
    (hres : s'.resolvedCalls = s.resolvedCalls)
    (hcount : s'.observedCount = s.observedCount)
    (hpend : s'.pending = s.pending ∨ s'.pending = none)
    (hstage : ∀ id, s'.stage id = s.stage id)
    (hout : ∀ k, s'.outcomes.get? k = s.outcomes.get? k)
    (htasks : SameTasks s.scheduledTasks s'.scheduledTasks) :
    s'.Coherent := by
  have hcalls : s'.scheduledTasks.map (·.call)
      = s.scheduledTasks.map (·.call) := by
    have := congrArg (List.map ScheduledTask.call) htasks
    simpa [List.map_map, Function.comp_def, ScheduledTask.uncancelled]
      using this
  constructor
  · rw [hres]
    exact hs.sorted
  · rw [hres]
    exact hs.ids
  · rw [hres, hcount]
    exact hs.bound
  · intro e he
    rcases hpend with hp | hp
    · rw [hres, hcount, hstage]
      exact hs.pending e (by rw [← hp, he])
    · rw [hp] at he
      cases he
  · rw [hcalls, hres]
    exact hs.scheduled
  · intro c hc hex
    rw [hres] at hc
    exact (hs.answered c hc hex).congr (hout _) (hstage _)
  · intro i t ht
    obtain ⟨u, hu, heq⟩ := htasks.get ht
    obtain ⟨hcall, -, -, hphase⟩ := ScheduledTask.eq_of_uncancelled heq
    exact (hs.task i u hu).congr hcall hphase (hout _) (hstage _)
  · intro k o hk
    rw [hout] at hk
    rw [hres]
    exact hs.outcome k o hk

variable {i : Nat} {p : TaskPhase} {t : ScheduledTask}

theorem TaskMove.task_cases {j : Nat} {u : ScheduledTask}
    (hm : TaskMove s s' i t p) (ht : s.scheduledTasks[i]? = some t)
    (hu : s'.scheduledTasks[j]? = some u) :
    (j = i ∧ u.uncancelled = { t with phase := p }.uncancelled)
      ∨ (j ≠ i ∧ ∃ v, s.scheduledTasks[j]? = some v
        ∧ u.uncancelled = v.uncancelled) := by
  obtain ⟨v, hv, heq⟩ := hm.tasks.get hu
  rw [List.getElem?_modify] at hv
  by_cases hij : i = j
  · subst hij
    simp only [if_true, ht] at hv
    cases hv
    exact Or.inl ⟨rfl, heq⟩
  · simp only [hij, if_false] at hv
    refine Or.inr ⟨fun h => hij h.symm, v, ?_, heq⟩
    simpa using hv

theorem TaskMove.get_self (hm : TaskMove s s' i t p)
    (ht : s.scheduledTasks[i]? = some t) :
    ∃ u, s'.scheduledTasks[i]? = some u
      ∧ u.uncancelled = { t with phase := p }.uncancelled := by
  have hi : (s.scheduledTasks.modify i fun u =>
      { u with phase := p })[i]? = some { t with phase := p } := by
    simp [ht]
  obtain ⟨u, hu, heq⟩ := hm.tasks.symm.get hi
  exact ⟨u, hu, heq.symm⟩

theorem TaskMove.get_of_ne {j : Nat} {v : ScheduledTask}
    (hm : TaskMove s s' i t p) (hji : j ≠ i)
    (hv : s.scheduledTasks[j]? = some v) :
    ∃ u, s'.scheduledTasks[j]? = some u ∧ u.uncancelled = v.uncancelled := by
  have hj : (s.scheduledTasks.modify i fun u =>
      { u with phase := p })[j]? = some v := by
    simp [hv, Ne.symm hji]
  obtain ⟨u, hu, heq⟩ := hm.tasks.symm.get hj
  exact ⟨u, hu, heq.symm⟩

theorem Coherent.move (hs : s.Coherent) (ht : s.scheduledTasks[i]? = some t)
    (hm : TaskMove s s' i t p) (hok : s'.TaskOk { t with phase := p }) :
    s'.Coherent := by
  obtain ⟨htmem, htex⟩ := hs.mem_of_task ht
  have hcalls : s'.scheduledTasks.map (·.call)
      = s.scheduledTasks.map (·.call) := by
    have h1 := congrArg (List.map ScheduledTask.call) hm.tasks
    rw [List.map_map, List.map_map] at h1
    have h2 : (s.scheduledTasks.modify i fun u =>
        { u with phase := p }).map (·.call)
        = s.scheduledTasks.map (·.call) := by
      refine List.ext_getElem? fun j => ?_
      simp only [List.getElem?_map, List.getElem?_modify]
      cases s.scheduledTasks[j]? with
      | none => rfl
      | some u =>
        by_cases hij : i = j
        · simp [hij]
        · simp [hij]
    rw [← h2]
    exact h1
  constructor
  · rw [hm.resolvedCalls]
    exact hs.sorted
  · rw [hm.resolvedCalls]
    exact hs.ids
  · rw [hm.resolvedCalls, hm.observedCount]
    exact hs.bound
  · intro e he
    rw [hm.pending] at he
    obtain ⟨hstage, hbound, hidx⟩ := hs.pending e he
    refine ⟨?_, by rw [hm.observedCount]; exact hbound, ?_⟩
    · -- the awaited call is not the moved one: their stages differ
      rw [hm.stage_of_ne, hstage]
      intro hid
      rw [hid] at hstage
      rcases (hs.task i t ht).stage_cases with h | h | h
      · rw [h] at hstage
        cases hstage
      · rw [h] at hstage
        cases hstage
      · rw [h] at hstage
        cases hstage
    · rw [hm.resolvedCalls]
      exact hidx
  · rw [hcalls, hm.resolvedCalls]
    exact hs.scheduled
  · intro c hc hex
    rw [hm.resolvedCalls] at hc
    have hne : c ≠ t.call := by
      intro h
      rw [h] at hex
      exact hex htex
    obtain ⟨hidx, hid⟩ := hs.call_ne hc htmem hne
    exact (hs.answered c hc hex).congr (hm.outcome_of_ne _ hidx)
      (hm.stage_of_ne _ hid)
  · intro j u hu
    rcases hm.task_cases ht hu with ⟨rfl, heq⟩ | ⟨hji, v, hv, heq⟩
    · obtain ⟨hcall, -, -, hphase⟩ := ScheduledTask.eq_of_uncancelled heq
      exact hok.congr hcall hphase rfl rfl
    · obtain ⟨hcall, -, -, hphase⟩ := ScheduledTask.eq_of_uncancelled heq
      obtain ⟨hidx, hid⟩ := hs.task_ne hji hv ht
      exact (hs.task j v hv).congr hcall hphase (hm.outcome_of_ne _ hidx)
        (hm.stage_of_ne _ hid)
  · intro k o hk
    rw [hm.resolvedCalls]
    by_cases hkt : k = t.call.replayIndex
    · exact ⟨t.call, htmem, hkt.symm⟩
    · rw [hm.outcome_of_ne k hkt] at hk
      exact hs.outcome k o hk

theorem settled_close {call : ResolvedToolCall} {o : ToolOutcome} {n : Nat}
    (hcall : o.resolvedCall = call)
    (hidx : o.replayIndex = call.replayIndex) :
    (s.close i call o n).Settled call := by
  obtain ⟨hout, hstage, -⟩ := close_eq (s := s) i call o n
  refine ⟨⟨o, ?_, hcall, hidx⟩, ?_⟩
  · rw [hout, hidx, Dict.get?_insert_self]
  · rw [hstage, hcall, if_pos rfl]

theorem Coherent.observe (hs : s.Coherent) (id name message : String)
    (hfresh : s.stage id = none) : (s.observe id name message).Coherent := by
  have hstage : ∀ id', id' ≠ id →
      (s.observe id name message).stage id' = s.stage id' := by
    intro id' hne
    rw [stage_observe, if_neg hne]
  have hself : (s.observe id name message).stage id = some .resolving := by
    rw [stage_observe, if_pos rfl]
  have hold : ∀ c ∈ s.resolvedCalls, c.toolUseId ≠ id := by
    intro c hc h
    apply hs.stage_ne_none hc
    rw [h, hfresh]
  constructor
  · exact hs.sorted
  · exact hs.ids
  · intro c hc
    have := hs.bound c hc
    show c.replayIndex < s.observedCount + 1
    omega
  · intro e he
    cases he
    refine ⟨hself, Nat.lt_succ_self _, hs.bound⟩
  · exact hs.scheduled
  · intro c hc hex
    exact (hs.answered c hc hex).congr rfl (hstage _ (hold c hc))
  · intro i t ht
    exact (hs.task i t ht).congr rfl rfl rfl
      (hstage _ (hold _ (hs.mem_of_task ht).1))
  · exact hs.outcome

theorem Coherent.awaited (hs : s.Coherent) {e : ToolCallEnvelope}
    (he : s.pending = some e) :
    s.outcomes.get? e.sequenceIndex = none
      ∧ ∀ c ∈ s.resolvedCalls, c.toolUseId ≠ e.toolUseId := by
  obtain ⟨hstage, -, hidx⟩ := hs.pending e he
  constructor
  · by_contra hne
    obtain ⟨o, ho⟩ := Option.ne_none_iff_exists'.1 hne
    obtain ⟨c, hc, heq⟩ := hs.outcome _ o ho
    have := hidx c hc
    omega
  · intro c hc h
    -- a resolved call is past the resolving stage
    by_cases hex : c.resolutionStatus = .executable
    · obtain ⟨i, t, ht, rfl⟩ := hs.task_of_mem hc hex
      rw [← h] at hstage
      rcases (hs.task i t ht).stage_cases with h' | h' | h'
      · simp [h'] at hstage
      · simp [h'] at hstage
      · simp [h'] at hstage
    · rw [← h, (hs.answered c hc hex).stage] at hstage
      simp at hstage

/-- Adding a resolved call to a coherent state. What the stages and the
outcomes say of the new call is `hnew`. -/
theorem Coherent.append (hs : s.Coherent) {e : ToolCallEnvelope}
    (call : ResolvedToolCall) (he : s.pending = some e)
    (hid : call.toolUseId = e.toolUseId)
    (hidx : call.replayIndex = e.sequenceIndex)
    (hres : s'.resolvedCalls = s.resolvedCalls ++ [call])
    (hcount : s'.observedCount = s.observedCount) (hpend : s'.pending = none)
    (hstage : ∀ id, id ≠ call.toolUseId → s'.stage id = s.stage id)
    (hout : ∀ k, k ≠ call.replayIndex →
      s'.outcomes.get? k = s.outcomes.get? k)
    (htasks : s'.scheduledTasks = s.scheduledTasks
        ∧ call.resolutionStatus ≠ .executable ∧ s'.Settled call
      ∨ ∃ t, s'.scheduledTasks = s.scheduledTasks ++ [t] ∧ t.call = call
        ∧ call.resolutionStatus = .executable ∧ s'.TaskOk t) :
    s'.Coherent := by
  obtain ⟨-, hbound, hbefore⟩ := hs.pending e he
  obtain ⟨-, hids⟩ := hs.awaited he
  have holdCall : ∀ c ∈ s.resolvedCalls,
      c.replayIndex ≠ call.replayIndex ∧ c.toolUseId ≠ call.toolUseId := by
    intro c hc
    have := hbefore c hc
    exact ⟨by omega, by rw [hid]; exact hids c hc⟩
  have holdTask : ∀ (i : Nat) (t : ScheduledTask),
      s.scheduledTasks[i]? = some t → s'.TaskOk t := by
    intro i t ht
    obtain ⟨hk, hi⟩ := holdCall _ (hs.mem_of_task ht).1
    exact (hs.task i t ht).congr rfl rfl (hout _ hk) (hstage _ hi)
  constructor
  · rw [hres, List.pairwise_append]
    refine ⟨hs.sorted, List.pairwise_singleton _ _, ?_⟩
    intro c hc d hd
    rw [List.mem_singleton.1 hd, hidx]
    exact hbefore c hc
  · rw [hres, List.pairwise_append]
    refine ⟨hs.ids, List.pairwise_singleton _ _, ?_⟩
    intro c hc d hd
    rw [List.mem_singleton.1 hd]
    exact (holdCall c hc).2
  · intro c hc
    rw [hres, List.mem_append, List.mem_singleton] at hc
    rw [hcount]
    rcases hc with hc | rfl
    · exact hs.bound c hc
    · omega
  · intro e' he'
    rw [hpend] at he'
    cases he'
  · rw [hres, List.filter_append]
    rcases htasks with ⟨heq, hex, -⟩ | ⟨t, heq, rfl, hex, -⟩
    · rw [heq, hs.scheduled]
      simp [hex]
    · rw [heq, List.map_append, hs.scheduled]
      simp [hex]
  · intro c hc hex
    rw [hres, List.mem_append, List.mem_singleton] at hc
    rcases hc with hc | rfl
    · obtain ⟨hk, hi⟩ := holdCall c hc
      exact (hs.answered c hc hex).congr (hout _ hk) (hstage _ hi)
    · rcases htasks with ⟨-, -, hset⟩ | ⟨t, -, -, hex', -⟩
      · exact hset
      · exact absurd hex' hex
  · intro i t ht
    rcases htasks with ⟨heq, -, -⟩ | ⟨u, heq, -, -, hok⟩
    · rw [heq] at ht
      exact holdTask i t ht
    · rw [heq, List.getElem?_append] at ht
      split at ht
      · exact holdTask i t ht
      · rw [List.getElem?_singleton] at ht
        split at ht
        · cases ht
          exact hok
        · cases ht
  · intro k o hk
    by_cases hkc : k = call.replayIndex
    · exact ⟨call, by simp [hres], hkc.symm⟩
    · rw [hout k hkc] at hk
      obtain ⟨c, hc, hck⟩ := hs.outcome k o hk
      exact ⟨c, by simp [hres, hc], hck⟩

theorem Coherent.effect (hs : s.Coherent) {a : Action}
    (h : Effect s a s') : s'.Coherent := by
  cases h with
  | observed id name message _ hfresh =>
    exact hs.observe id name message hfresh
  | answered r ck e he hex =>
    obtain ⟨hcall, hidx⟩ := syntheticOutcome_resolvedCall
      (r.resolvedCall e none)
      (s.resolve (r.resolvedCall e none)).completionIndex
    refine hs.append (r.resolvedCall e none) he rfl rfl rfl rfl rfl
      ?_ ?_ (Or.inl ⟨rfl, hex, ⟨⟨_, ?_, hcall, hidx⟩, ?_⟩⟩)
    · intro id hid
      rw [stage_answer, if_neg hid]
    · intro k hk
      rw [← hidx] at hk
      exact Dict.get?_insert_of_ne _ _ hk
    · have hself := Dict.get?_insert_self s.outcomes
        (r.resolvedCall e none).replayIndex
        (syntheticOutcome (r.resolvedCall e none)
          (s.resolve (r.resolvedCall e none)).completionIndex)
      rw [← hidx] at hself ⊢
      exact hself
    · rw [stage_answer, if_pos rfl]
  | scheduled r ck e lane he hex =>
    refine hs.append (r.resolvedCall e (some lane)) he rfl rfl rfl
      rfl rfl ?_ (fun _ _ => rfl)
      (Or.inr ⟨s.newTask (r.resolvedCall e (some lane)), rfl, rfl, hex, ?_⟩)
    · intro id hid
      rw [stage_schedule, if_neg hid]
    · refine ⟨(hs.awaited he).1, ?_⟩
      exact (stage_schedule s _ _).trans (if_pos rfl)
  | dropped i t ck ht hp _ =>
    have hok := hs.task i t ht
    unfold TaskOk at hok
    rw [hp] at hok
    exact hs.move ht (taskMove_setPhase i t .done s.completionIndex)
      (Or.inr (Or.inl ⟨hok.outcome, hok.stage⟩))
  | parked i t ck ht hp _ _ =>
    have hok := hs.task i t ht
    unfold TaskOk at hok
    rw [hp] at hok
    exact hs.move ht (taskMove_setPhase i t .waiting s.completionIndex)
      ⟨hok.outcome, hok.stage⟩
  | started a i t ht hbeg =>
    have hlic := hbeg.licensed
    have hok := hs.task i t ht
    unfold TaskOk at hok
    refine hs.move ht (taskMove_started i t) ⟨?_, ?_⟩
    · cases hlic with
      | firstStep _ hp _ =>
        rw [hp] at hok
        exact hok.outcome
      | resume _ hp _ =>
        rw [hp] at hok
        exact hok.outcome
    · exact (stage_markStarted s t.call t.call.toolUseId).trans (if_pos rfl)
  | refused a i t o n ht _ _ _ hcall hidx =>
    exact hs.move ht (taskMove_close i t o n hcall hidx).after_started
      (Or.inl (settled_close hcall hidx))
  | cancelled i t ck o n ht _ _ _ hcall hidx =>
    exact hs.move ht (taskMove_close i t o n hcall hidx)
      (Or.inl (settled_close hcall hidx))
  | finished i t run ck o n ht _ _ hcall hidx =>
    exact hs.move ht (taskMove_close i t o n hcall hidx)
      (Or.inl (settled_close hcall hidx))
  | escaped i t run ck n ht hp _ =>
    have hok := hs.task i t ht
    unfold TaskOk at hok
    rw [hp] at hok
    exact hs.move ht (taskMove_setPhase i t .done n)
      (Or.inr (Or.inr ⟨hok.outcome, hok.stage⟩))
  | progressed i t progressId message ht hst =>
    refine hs.congr rfl rfl (Or.inl rfl) ?_ (fun _ => rfl)
      (SameTasks.refl _)
    intro id
    by_cases hid : id = t.call.toolUseId
    · rw [hid, hst]
      exact (stage_afterEvent s _ _).trans (if_pos rfl)
    · exact (stage_afterEvent s _ _).trans (if_neg hid)
  | unheard _ _ _ => exact hs
  | interrupted reason =>
    exact hs.congr rfl rfl (Or.inl rfl) (fun _ => rfl) (fun _ => rfl)
      (sameTasks_cancelWhere _ _)
  | requested reason =>
    exact hs.congr rfl rfl (Or.inl rfl) (fun _ => rfl) (fun _ => rfl)
      (SameTasks.refl _)
  | _ =>
    exact hs.congr rfl rfl (Or.inr rfl) (fun _ => rfl) (fun _ => rfl)
      (SameTasks.refl _)

end Preservation

-- ===== no event raises

section Events

variable {s : OrchestratorState}

theorem emitLifecycle_of_accepts {e : ToolLifecycleEvent}
    (h : accepts e (s.stage e.toolUseId)) :
    s.emitLifecycle e = .ok (s.afterEvent e) := by
  unfold emitLifecycle afterEvent
  rw [projectLifecycleStage_eq_ok.2 ⟨h, rfl⟩]

theorem emitLifecycle_of_error {event : ToolLifecycleEvent}
    {err : LifecycleTransitionError}
    (h : projectLifecycleStage (s.stage event.toolUseId) event = .error err) :
    s.emitLifecycle event = .error (.raised err) := by
  unfold emitLifecycle
  rw [h]

variable {call : ResolvedToolCall}

theorem settle_some {i : Nat} {o : ToolOutcome} {n : Nat}
    (hcall : o.resolvedCall = call)
    (hst : s.stage call.toolUseId = some .queued
      ∨ s.stage call.toolUseId = some .running) :
    s.settle i call (some o, n) = .ok (s.close i call o n) := by
  have hacc : accepts (.outcomeRecorded o.resolvedCall.toolUseId
      o.replayIndex o.completionIndex o.status)
      (s.stage o.resolvedCall.toolUseId) := by
    rw [hcall]
    rcases hst with h | h
    · exact Or.inr (Or.inl h)
    · exact Or.inl h
  have hrec : recordOutcome { s with completionIndex := n } o
      = .ok (record { s with completionIndex := n } o) :=
    emitLifecycle_of_accepts hacc
  unfold settle
  simp only [hrec]
  rfl

theorem startCall_of_queued (i : Nat) (ck : String → Option String)
    (hst : s.stage call.toolUseId = some .queued) :
    (preflight call s.interruptReason = none
      ∧ s.startCall i call ck
        = .ok ((s.markStarted call).setPhase i .running))
    ∨ ∃ o n, preflight call s.interruptReason ≠ none
      ∧ o.resolvedCall = call ∧ o.replayIndex = call.replayIndex
      ∧ s.startCall i call ck = .ok ((s.markStarted call).close i call o n) := by
  have hemit : emitLifecycle
      { s with startedCalls := s.startedCalls.insert call.toolUseId }
      (.executionStarted call.toolUseId call.replayIndex (laneKindOf call))
      = .ok (s.markStarted call) :=
    emitLifecycle_of_accepts hst
  have hstart : s.startCall i call ck
      = (s.markStarted call).enterBody i call ck := by
    show Except.bind (emitLifecycle _ (.executionStarted _ _ _)) _ = _
    rw [hemit]
    rfl
  rw [hstart]
  unfold enterBody
  cases hpre : preflight call s.interruptReason with
  | none =>
    have hbody : preflight call (s.markStarted call).interruptReason
        = none := hpre
    rw [hbody]
    exact Or.inl ⟨rfl, rfl⟩
  | some result =>
    have hbody : preflight call (s.markStarted call).interruptReason
        = some result := hpre
    obtain ⟨o, ho⟩ := buildOutcome_preflight ck
      (n := s.completionIndex) hpre
    obtain ⟨hcall, hidx, -⟩ := buildOutcome_eq_some ck ho
    have hrun : (s.markStarted call).stage call.toolUseId
        = some .running :=
      (stage_markStarted s call call.toolUseId).trans (if_pos rfl)
    refine Or.inr ⟨o, s.completionIndex + 1, by simp, hcall, hidx, ?_⟩
    rw [hbody]
    show (s.markStarted call).settle i call
      (buildOutcome ck call result s.completionIndex) = _
    rw [ho]
    exact settle_some hcall (Or.inr hrun)

theorem start_effect {a : Action} {i : Nat} {t : ScheduledTask}
    (ck : String → Option String) (ht : s.scheduledTasks[i]? = some t)
    (hc : t.numCancelsRequested = 0) (hlic : s.Licenses i t a)
    (hst : s.stage t.call.toolUseId = some .queued) :
    ∃ s', s.startCall i t.call ck = .ok s' ∧ Effect s a s' := by
  rcases startCall_of_queued i ck hst with
    ⟨hpre, hrun⟩ | ⟨o, n, hpre, hcall, hidx, hrun⟩
  · exact ⟨_, hrun, .started a i t ht ⟨hlic, hc, hpre⟩⟩
  · exact ⟨_, hrun, .refused a i t o n ht hc hlic hpre hcall hidx⟩

theorem observeBegin_of_fresh {id name message : String}
    (hfresh : s.stage id = none) :
    s.observeBegin id name message = .ok (s.observe id name message) := by
  unfold observeBegin
  dsimp only
  rw [emitLifecycle_of_accepts]
  · show emitLifecycle _ _ = _
    rw [emitLifecycle_of_accepts]
    · rfl
    · exact (stage_afterEvent _ _ _).trans (if_pos rfl)
  · exact hfresh

theorem observeBegin_of_seen {id name message : String}
    (hseen : s.stage id ≠ none) :
    s.observeBegin id name message
      = .error (.raised (.invalidTransition (s.stage id) none)) := by
  have hemit : emitLifecycle
      { s with
        observedCount := s.observedCount + 1
        pending := some
          { toolUseId := id, sequenceIndex := s.observedCount
            rawToolName := name, assistantMessageId := message } }
      (.envelopeObserved id s.observedCount message name)
      = .error (.raised (.invalidTransition (s.stage id) none)) := by
    refine emitLifecycle_of_error ?_
    show (requireTransition (s.stage id) none).bind _ = _
    simp only [requireTransition, if_neg hseen]
    rfl
  unfold observeBegin
  dsimp only
  rw [hemit]
  rfl

theorem observeLane_of_resolving
    (hst : s.stage call.toolUseId = some .resolving) :
    s.observeLane call = .ok (if call.resolutionStatus = .executable
      then s.schedule call else s.answer call) := by
  have hemit : emitLifecycle
      { s with pending := none, resolvedCalls := s.resolvedCalls ++ [call] }
      (.resolutionCompleted call.toolUseId call.replayIndex
        call.resolutionStatus call.canonicalToolName)
      = .ok (s.resolve call) :=
    emitLifecycle_of_accepts hst
  have hstage := stage_resolve s call call.toolUseId
  rw [if_pos rfl] at hstage
  unfold observeLane
  rw [hemit]
  show (if call.resolutionStatus ≠ .executable then _ else _) = _
  by_cases hex : call.resolutionStatus = .executable
  · rw [if_neg (by simp [hex]), if_pos hex]
    rw [if_pos hex] at hstage
    have hqueue : (s.resolve call).emitLifecycle
        (.executionQueued call.toolUseId call.replayIndex (laneKindOf call)
          (call.schedulerLane.bind fun lane => lane.laneKey))
        = .ok ((s.resolve call).afterEvent
          (.executionQueued call.toolUseId call.replayIndex (laneKindOf call)
            (call.schedulerLane.bind fun lane => lane.laneKey))) :=
      emitLifecycle_of_accepts hstage
    rw [hqueue]
    rfl
  · rw [if_pos hex, if_neg hex]
    rw [if_neg hex] at hstage
    obtain ⟨hcall, -⟩ :=
      syntheticOutcome_resolvedCall call (s.resolve call).completionIndex
    refine emitLifecycle_of_accepts (Or.inr (Or.inr ?_))
    show (s.resolve call).stage
      (syntheticOutcome call _).resolvedCall.toolUseId = _
    rw [hcall]
    exact hstage

-- ========== every step

theorem deriveLane_eq_some {ck : String → Option String}
    {lane : Option ToolSchedulerLane} (h : deriveLane ck call = some lane) :
    lane.isSome = true ↔ call.resolutionStatus = .executable := by
  unfold deriveLane at h
  by_cases hex : call.resolutionStatus = .executable
  · rw [if_neg (by simp [hex])] at h
    cases hsem : call.resolvedSemantics with
    | none =>
      simp only [hsem, Option.some.injEq] at h
      simp [← h, hex]
    | some semantics =>
      simp only [hsem] at h
      split at h
      · cases h
        simp [hex]
      · obtain ⟨domains, -, hd⟩ := Option.bind_eq_some_iff.1 h
        simp only [pure] at hd
        split_ifs at hd
        · cases hd
          simp [hex]
        · cases hd
          simp [hex]
        · cases hd
          simp [hex]
  · rw [if_pos hex] at h
    cases h
    simp [hex]

/-- An observation of an id that was observed before. -/
def Duplicate (s : OrchestratorState) (a : Action) : Prop :=
  ∃ id name message, a = .observeBegin id name message
    ∧ s.stage id ≠ none

/-- From a coherent state an action is disabled, observes an id again, or
has an effect. -/
theorem step_effect (hs : s.Coherent) (a : Action) :
    s.step? a = .error .disabled ∨ s.Duplicate a
      ∨ ∃ s', s.step? a = .ok s' ∧ Effect s a s' := by
  cases a with
  | observeBegin id name message =>
    by_cases hp : s.pending.isSome
    · exact Or.inl (if_pos hp)
    · refine Or.inr ?_
      by_cases hfresh : s.stage id = none
      · refine Or.inr ⟨s.observe id name message, ?_, ?_⟩
        · exact (if_neg hp).trans (observeBegin_of_fresh hfresh)
        · exact Effect.observed id name message (by simpa using hp) hfresh
      · exact Or.inl ⟨id, name, message, rfl, hfresh⟩
  | observeResolved r ck =>
    cases hp : s.pending with
    | none =>
      refine Or.inl ?_
      simp only [step?, hp]
    | some e =>
      refine Or.inr (Or.inr ?_)
      cases hl : deriveLane ck (r.resolvedCall e none) with
      | none =>
        refine ⟨{ s with pending := none }, ?_,
          Effect.laneless r ck (by simp [hp])⟩
        simp only [step?, hp, hl]
      | some lane =>
        have hlane := deriveLane_eq_some hl
        have hrun : s.step? (.observeResolved r ck)
            = s.observeLane (r.resolvedCall e lane) := by
          simp only [step?, hp, hl]
        have hst : s.stage (r.resolvedCall e lane).toolUseId
            = some .resolving := (hs.pending e hp).1
        rw [observeLane_of_resolving hst] at hrun
        refine ⟨_, hrun, ?_⟩
        cases lane with
        | none =>
          have hex : r.resolutionStatus ≠ .executable := by
            intro h
            exact absurd (hlane.2 h) (by simp)
          have hcase : ¬ (r.resolvedCall e none).resolutionStatus
              = .executable := hex
          rw [if_neg hcase]
          exact Effect.answered r ck e hp hex
        | some lane =>
          have hex : r.resolutionStatus = .executable :=
            hlane.1 rfl
          have hcase : (r.resolvedCall e (some lane)).resolutionStatus
              = .executable := hex
          rw [if_pos hcase]
          exact Effect.scheduled r ck e lane hp hex
  | observeFailed =>
    by_cases hp : s.pending.isSome
    · refine Or.inr (Or.inr ⟨_, if_pos hp, Effect.unresolved hp⟩)
    · exact Or.inl (if_neg hp)
  | firstStep i ck =>
    cases ht : s.scheduledTasks[i]? with
    | none =>
      refine Or.inl ?_
      simp only [step?, ht]
    | some t =>
      simp only [step?, ht]
      by_cases hp : t.phase = .created
      · rw [if_neg (by simp [hp])]
        refine Or.inr (Or.inr ?_)
        by_cases hc : t.numCancelsRequested = 0
        · rw [if_neg (by simp [hc])]
          by_cases hw : t.waitFor = []
          · rw [if_pos hw]
            have hok := hs.task i t ht
            unfold TaskOk at hok
            rw [hp] at hok
            have hlic : s.Licenses i t (.firstStep i ck) :=
              .firstStep ck hp hw
            exact start_effect ck ht hc hlic hok.stage
          · rw [if_neg hw]
            exact ⟨_, rfl, .parked i t ck ht hp hc hw⟩
        · rw [if_pos hc]
          exact ⟨_, rfl, .dropped i t ck ht hp hc⟩
      · exact Or.inl (if_pos hp)
  | resume i ck =>
    cases ht : s.scheduledTasks[i]? with
    | none =>
      refine Or.inl ?_
      simp only [step?, ht]
    | some t =>
      simp only [step?, ht]
      by_cases hp : t.phase = .waiting ∧ s.allDone t.waitFor = true
      · obtain ⟨hp, hdone⟩ := hp
        rw [if_neg (by simp [hp, hdone])]
        have hok := hs.task i t ht
        unfold TaskOk at hok
        rw [hp] at hok
        refine Or.inr (Or.inr ?_)
        by_cases hc : t.numCancelsRequested = 0
        · rw [if_neg (by simp [hc])]
          have hlic : s.Licenses i t (.resume i ck) :=
            .resume ck hp hdone
          exact start_effect ck ht hc hlic hok.stage
        · rw [if_pos hc]
          refine ⟨_, settle_some rfl (Or.inl hok.stage), ?_⟩
          exact .cancelled i t ck _ _ ht hp hc hdone rfl rfl
      · refine Or.inl (if_pos ?_)
        by_cases hw : t.phase = .waiting
        · refine Or.inr ?_
          by_contra hdone
          exact hp ⟨hw, by simpa using hdone⟩
        · exact Or.inl hw
  | finish i run ck =>
    cases ht : s.scheduledTasks[i]? with
    | none =>
      refine Or.inl ?_
      simp only [step?, ht]
    | some t =>
      simp only [step?, ht]
      by_cases hp : t.phase = .running
      · rw [if_neg (by simp [hp])]
        have hok := hs.task i t ht
        unfold TaskOk at hok
        rw [hp] at hok
        refine Or.inr (Or.inr ?_)
        rcases hset : settleRun ck t.call run s.completionIndex with
          ⟨o?, n⟩
        cases o? with
        | none =>
          have hesc : Escapes ck t.call run :=
            (settleRun_eq_none_iff ck).1 (by rw [hset])
          exact ⟨_, rfl, .escaped i t run ck n ht hp hesc⟩
        | some o =>
          have hesc : ¬ Escapes ck t.call run := by
            rw [← settleRun_eq_none_iff ck (n := s.completionIndex),
              hset]
            simp
          obtain ⟨hcall, hidx⟩ := settleRun_eq_some ck hset
          refine ⟨_, settle_some hcall (Or.inr hok.stage), ?_⟩
          exact .finished i t run ck o n ht hp hesc hcall hidx
      · exact Or.inl (if_pos hp)
  | progress i progressId message =>
    cases ht : s.scheduledTasks[i]? with
    | none =>
      refine Or.inl ?_
      simp only [step?, ht]
    | some t =>
      refine Or.inr (Or.inr ?_)
      simp only [step?, ht]
      by_cases hst : s.stage t.call.toolUseId = some .running
      · refine ⟨_, ?_, .progressed i t progressId message ht hst⟩
        rw [emitLifecycle_of_accepts (e := .progressEmitted
          t.call.toolUseId t.call.replayIndex progressId message) hst]
      · refine ⟨s, ?_, .unheard i progressId message⟩
        have hemit : s.emitLifecycle (.progressEmitted t.call.toolUseId
            t.call.replayIndex progressId message)
            = .error (.raised (.progressOutsideRunning
              (s.stage t.call.toolUseId))) := by
          exact emitLifecycle_of_error (if_neg hst)
        rw [hemit]
  | interrupt reason =>
    exact Or.inr (Or.inr ⟨_, rfl, .interrupted reason⟩)
  | requestInterrupt reason =>
    exact Or.inr (Or.inr ⟨_, rfl, .requested reason⟩)

end Events

end OrchestratorState

namespace OrchestratorState

variable {s s' : OrchestratorState}

theorem effect_of_step {a : Action} (hs : s.Coherent)
    (h : orchestrator.step s a = some s') : Effect s a s' := by
  have hok : s.step? a = .ok s' := by
    have h : (s.step? a).toOption = some s' := h
    cases hstep : s.step? a with
    | error e =>
      rw [hstep] at h
      cases h
    | ok t =>
      rw [hstep] at h
      cases h
      rfl
  rcases step_effect hs a with hd | ⟨id, name, message, rfl, hdup⟩ | ⟨t, ht, heff⟩
  · rw [hd] at hok
    cases hok
  · -- a repeated observation raises
    exfalso
    have hstep : s.step? (.observeBegin id name message)
        = if s.pending.isSome then .error .disabled
          else s.observeBegin id name message := rfl
    rw [hstep, observeBegin_of_seen hdup] at hok
    split at hok
    · cases hok
    · cases hok
  · rw [ht] at hok
    cases hok
    exact heff

theorem coherent_step {a : Action} (hs : s.Coherent)
    (h : orchestrator.step s a = some s') : s'.Coherent :=
  hs.effect (effect_of_step hs h)

theorem coherent_of_reachable (h : orchestrator.Reachable {} s) :
    s.Coherent :=
  System.reachable_invariant (fun _ _ _ hs hstep => coherent_step hs hstep)
    coherent_init h

end OrchestratorState

end WeaveRuntime.Tools
