/-
The shape of a step, as the run-level results read it.

An effect either leaves every task where it was, up to cancellation
counts and a newcomer (`Extends`), or it moves one unfinished task
(`Moves`): into its wait, into its tool body, or to its end. Which calls
have started changes on a licensed move only, and there by the moved
call.

`KeepsResult` is the condition under which a move to the end leaves an
outcome behind.
-/
import WeaveRuntime.Tools.Orchestration.Invariant

namespace WeaveRuntime.Tools

open Lib

namespace OrchestratorState

variable {s s' : OrchestratorState}

/-- The step does not end a task without an outcome: no task takes its
first step under a cancellation, and no exception escapes a tool body. -/
def KeepsResult (s : OrchestratorState) : Action → Prop
  | .firstStep i _ => ∀ t, s.scheduledTasks[i]? = some t →
      t.numCancelsRequested = 0
  | .finish i run ck => ∀ t, s.scheduledTasks[i]? = some t →
      ¬ Escapes ck t.call run
  | _ => True

/-- No exception escapes a tool body in the step. -/
def NoEscape (s : OrchestratorState) : Action → Prop
  | .finish i run ck => ∀ t, s.scheduledTasks[i]? = some t →
      ¬ Escapes ck t.call run
  | _ => True

/-- A step that touches no task's phase: what is known of the calls so
far stays, and at most one task is new. -/
structure Extends (s s' : OrchestratorState) : Prop where
  stage : ∀ c ∈ s.resolvedCalls, s'.stage c.toolUseId = s.stage c.toolUseId
  outcome : ∀ c ∈ s.resolvedCalls,
    s'.outcomes.get? c.replayIndex = s.outcomes.get? c.replayIndex
  tasks : SameTasks s.scheduledTasks s'.scheduledTasks
    ∨ ∃ call, s'.scheduledTasks = s.scheduledTasks ++ [s.newTask call]
      ∧ ∀ c ∈ s.resolvedCalls, c.replayIndex < call.replayIndex
        ∧ c.toolUseId ≠ call.toolUseId
  startOrder : s'.startOrder = s.startOrder
  resolvedCalls : ∀ c ∈ s.resolvedCalls, c ∈ s'.resolvedCalls
  startedCalls : s'.startedCalls = s.startedCalls

structure Moves (s s' : OrchestratorState) (a : Action) (i : Nat)
    (t : ScheduledTask) (p : TaskPhase) : Prop where
  task : s.scheduledTasks[i]? = some t
  unfinished : t.phase ≠ .done
  move : TaskMove s s' i t p
  settles : (p = .done → s'.Settled t.call) ↔ s.KeepsResult a
  ends : p = .done →
    s'.Settled t.call ∨ t.phase = .created ∨ ¬ s.NoEscape a
  starts :
    (s'.startOrder = s.startOrder
        ∧ (p = .done ∨ (t.phase = .created ∧ p = .waiting)))
      ∨ (s.Licenses i t a
        ∧ ((p = .done ∧ s'.Settled t.call) ∨ (p = .running ∧ s.Begins i t a))
        ∧ s'.startOrder = s.startOrder ++ [t.call.replayIndex])
  startedCalls : ∀ id, id ≠ t.call.toolUseId →
    (id ∈ s'.startedCalls ↔ id ∈ s.startedCalls)
  startedCall : p ≠ .done → (t.call.toolUseId ∈ s'.startedCalls
    ↔ p = .running ∨ t.call.toolUseId ∈ s.startedCalls)

theorem startOrder_afterEvent (event : ToolLifecycleEvent)
    (h : ∀ id i k, event ≠ .executionStarted id i k) :
    (s.afterEvent event).startOrder = s.startOrder := by
  unfold startOrder afterEvent
  rw [List.filterMap_append]
  cases event with
  | executionStarted id i k => exact absurd rfl (h id i k)
  | _ => simp

theorem startOrder_markStarted (call : ResolvedToolCall) :
    (s.markStarted call).startOrder = s.startOrder ++ [call.replayIndex] := by
  simp [markStarted, startOrder, afterEvent]

theorem extends_of_same
    (hstage : ∀ c ∈ s.resolvedCalls,
      s'.stage c.toolUseId = s.stage c.toolUseId)
    (hout : s'.outcomes = s.outcomes)
    (htasks : SameTasks s.scheduledTasks s'.scheduledTasks)
    (hstart : s'.startOrder = s.startOrder)
    (hres : s'.resolvedCalls = s.resolvedCalls)
    (hcalls : s'.startedCalls = s.startedCalls) : Extends s s' :=
  ⟨hstage, fun c _ => by rw [hout], Or.inl htasks, hstart,
    fun c hc => by rw [hres]; exact hc, hcalls⟩

variable {a : Action} {i : Nat} {t : ScheduledTask}

theorem mem_startedCalls_close {call : ResolvedToolCall} {o : ToolOutcome}
    {n : Nat} {id : String} (hid : id ≠ call.toolUseId) :
    id ∈ (s.close i call o n).startedCalls ↔ id ∈ s.startedCalls := by
  rw [close_startedCalls, List.mem_filter]
  simp [hid]

theorem mem_startedCalls_markStarted {call : ResolvedToolCall} {id : String} :
    id ∈ (s.markStarted call).startedCalls
      ↔ id = call.toolUseId ∨ id ∈ s.startedCalls :=
  List.mem_insert_iff

theorem Licenses.phase (h : s.Licenses i t a) :
    t.phase = .created ∨ t.phase = .waiting := by
  cases h with
  | firstStep _ hp _ => exact Or.inl hp
  | resume _ hp _ => exact Or.inr hp

theorem Licenses.allDone (h : s.Licenses i t a) {d : Nat} {u : ScheduledTask}
    (hd : d ∈ t.waitFor) (hu : s.scheduledTasks[d]? = some u) :
    u.phase = .done := by
  cases h with
  | firstStep _ _ hw =>
    rw [hw] at hd
    cases hd
  | resume _ _ hdone =>
    unfold OrchestratorState.allDone at hdone
    have := List.all_eq_true.1 hdone d hd
    rw [hu] at this
    simpa using this

theorem Licenses.keepsResult (h : s.Licenses i t a)
    (ht : s.scheduledTasks[i]? = some t) (hc : t.numCancelsRequested = 0) :
    s.KeepsResult a := by
  cases h with
  | firstStep ck _ _ =>
    intro u hu
    rw [ht] at hu
    cases hu
    exact hc
  | resume ck _ _ => exact trivial

theorem effect_shape (hs : s.Coherent) (h : Effect s a s') :
    (Extends s s' ∧ s.KeepsResult a) ∨ ∃ i t p, Moves s s' a i t p := by
  cases h with
  | observed id name message _ hfresh =>
    refine Or.inl ⟨extends_of_same ?_ rfl (SameTasks.refl _) ?_ rfl rfl,
      trivial⟩
    · intro c hc
      rw [stage_observe, if_neg]
      intro hid
      exact hs.stage_ne_none hc (by rw [hid, hfresh])
    · unfold observe
      rw [startOrder_afterEvent _ (by simp),
        startOrder_afterEvent _ (by simp)]
      rfl
  | answered r ck e he hex =>
    obtain ⟨-, hids⟩ := hs.awaited he
    obtain ⟨-, -, hbefore⟩ := hs.pending e he
    obtain ⟨-, hidx⟩ := syntheticOutcome_resolvedCall
      (r.resolvedCall e none)
      (s.resolve (r.resolvedCall e none)).completionIndex
    refine Or.inl ⟨⟨?_, ?_, Or.inl (SameTasks.refl _), ?_,
      fun c hc => List.mem_append_left _ hc, rfl⟩, trivial⟩
    · intro c hc
      exact (stage_answer s _ _).trans (if_neg (hids c hc))
    · intro c hc
      refine Dict.get?_insert_of_ne _ _ ?_
      rw [hidx]
      exact Nat.ne_of_lt (hbefore c hc)
    · unfold answer record
      rw [startOrder_afterEvent _ (by simp)]
      exact startOrder_afterEvent _ (by simp)
  | scheduled r ck e lane he _ =>
    obtain ⟨-, hids⟩ := hs.awaited he
    obtain ⟨-, -, hbefore⟩ := hs.pending e he
    refine Or.inl ⟨⟨?_, fun _ _ => rfl,
      Or.inr ⟨r.resolvedCall e (some lane), rfl,
        fun c hc => ⟨hbefore c hc, hids c hc⟩⟩, ?_,
      fun c hc => List.mem_append_left _ hc, rfl⟩, trivial⟩
    · intro c hc
      exact (stage_schedule s _ _).trans (if_neg (hids c hc))
    · exact (startOrder_afterEvent _ (by simp)).trans
        (startOrder_afterEvent _ (by simp))
  | dropped i t ck ht hp hc =>
    have hok := hs.task i t ht
    unfold TaskOk at hok
    rw [hp] at hok
    refine Or.inr ⟨i, t, .done, ht, by simp [hp],
      taskMove_setPhase i t .done s.completionIndex, ?_,
      fun _ => Or.inr (Or.inl hp), Or.inl ⟨rfl, Or.inl rfl⟩,
      fun _ _ => Iff.rfl, fun hd => absurd rfl hd⟩
    constructor
    · intro hset
      have hst := (hset rfl).stage
      rw [setPhase_stage, hok.stage] at hst
      cases hst
    · intro hkeep
      exact absurd (hkeep t ht) hc
  | parked i t ck ht hp hc _ =>
    refine Or.inr ⟨i, t, .waiting, ht, by simp [hp],
      taskMove_setPhase i t .waiting s.completionIndex,
      ⟨fun _ => ?_, fun _ hd => by cases hd⟩, (fun hd => by cases hd),
      Or.inl ⟨rfl, Or.inr ⟨hp, rfl⟩⟩, fun _ _ => Iff.rfl,
      fun _ => by simp [setPhase]⟩
    intro u hu
    rw [ht] at hu
    cases hu
    exact hc
  | started a i t ht hbeg =>
    refine Or.inr ⟨i, t, .running, ht, ?_, taskMove_started i t,
      ⟨fun _ => hbeg.licensed.keepsResult ht hbeg.uncancelled,
        fun _ hd => by cases hd⟩,
      (fun hd => by cases hd),
      Or.inr ⟨hbeg.licensed, Or.inr ⟨rfl, hbeg⟩,
        startOrder_markStarted t.call⟩, ?_, fun _ => ?_⟩
    · rcases hbeg.licensed.phase with hp | hp
      · simp [hp]
      · simp [hp]
    · intro id hid
      exact mem_startedCalls_markStarted.trans (by simp [hid])
    · exact mem_startedCalls_markStarted.trans (by simp)
  | refused a i t o n ht hc hlic _ hcall hidx =>
    obtain ⟨-, -, -, -, -, hstart, -⟩ :=
      close_eq (s := s.markStarted t.call) i t.call o n
    refine Or.inr ⟨i, t, .done, ht, ?_,
      (taskMove_close i t o n hcall hidx).after_started,
      ⟨fun _ => hlic.keepsResult ht hc, fun _ _ => settled_close hcall hidx⟩,
      fun _ => Or.inl (settled_close hcall hidx),
      Or.inr ⟨hlic, Or.inl ⟨rfl, settled_close hcall hidx⟩, ?_⟩, ?_,
      fun hd => absurd rfl hd⟩
    · rcases hlic.phase with hp | hp
      · simp [hp]
      · simp [hp]
    · rw [hstart, startOrder_markStarted]
    · intro id hid
      rw [mem_startedCalls_close hid]
      exact mem_startedCalls_markStarted.trans (by simp [hid])
  | cancelled i t ck o n ht hp _ _ hcall hidx =>
    obtain ⟨-, -, -, -, -, hstart, -⟩ := close_eq (s := s) i t.call o n
    exact Or.inr ⟨i, t, .done, ht, by simp [hp],
      taskMove_close i t o n hcall hidx,
      ⟨fun _ => trivial, fun _ _ => settled_close hcall hidx⟩,
      fun _ => Or.inl (settled_close hcall hidx),
      Or.inl ⟨hstart, Or.inl rfl⟩,
      fun _ hid => mem_startedCalls_close hid, fun hd => absurd rfl hd⟩
  | finished i t run ck o n ht hp hesc hcall hidx =>
    obtain ⟨-, -, -, -, -, hstart, -⟩ := close_eq (s := s) i t.call o n
    refine Or.inr ⟨i, t, .done, ht, by simp [hp],
      taskMove_close i t o n hcall hidx,
      ⟨fun _ => ?_, fun _ _ => settled_close hcall hidx⟩,
      fun _ => Or.inl (settled_close hcall hidx),
      Or.inl ⟨hstart, Or.inl rfl⟩,
      fun _ hid => mem_startedCalls_close hid, fun hd => absurd rfl hd⟩
    intro u hu
    rw [ht] at hu
    cases hu
    exact hesc
  | escaped i t run ck n ht hp hesc =>
    have hok := hs.task i t ht
    unfold TaskOk at hok
    rw [hp] at hok
    refine Or.inr ⟨i, t, .done, ht, by simp [hp],
      taskMove_setPhase i t .done n, ?_,
      fun _ => Or.inr (Or.inr fun hno => hno t ht hesc),
      Or.inl ⟨rfl, Or.inl rfl⟩, fun _ _ => Iff.rfl,
      fun hd => absurd rfl hd⟩
    constructor
    · intro hset
      have hst := (hset rfl).stage
      have hrun : (setPhase { s with completionIndex := n } i .done).stage
          t.call.toolUseId = some .running := hok.stage
      rw [hrun] at hst
      cases hst
    · intro hkeep
      exact absurd hesc (hkeep t ht)
  | progressed i t progressId message ht hst =>
    refine Or.inl ⟨extends_of_same ?_ rfl (SameTasks.refl _)
      (startOrder_afterEvent _ (by simp)) rfl rfl, trivial⟩
    intro c hc
    by_cases hid : c.toolUseId = t.call.toolUseId
    · rw [hid, hst]
      exact (stage_afterEvent s _ _).trans (if_pos rfl)
    · exact (stage_afterEvent s _ _).trans (if_neg hid)
  | unheard _ _ _ =>
    exact Or.inl ⟨extends_of_same (fun _ _ => rfl) rfl (SameTasks.refl _)
      rfl rfl rfl, trivial⟩
  | interrupted reason =>
    exact Or.inl ⟨extends_of_same (fun _ _ => rfl) rfl
      (sameTasks_cancelWhere _ _) rfl rfl rfl, trivial⟩
  | requested reason =>
    exact Or.inl ⟨extends_of_same (fun _ _ => rfl) rfl (SameTasks.refl _)
      rfl rfl rfl, trivial⟩
  | _ =>
    exact Or.inl ⟨extends_of_same (fun _ _ => rfl) rfl (SameTasks.refl _)
      rfl rfl rfl, trivial⟩

theorem Extends.task_cases (h : Extends s s')
    (ht : s'.scheduledTasks[i]? = some t) :
    (∃ u, s.scheduledTasks[i]? = some u ∧ t.uncancelled = u.uncancelled)
      ∨ t.phase = .created := by
  rcases h.tasks with hsame | ⟨call, heq, -⟩
  · exact Or.inl (hsame.get ht)
  · rw [heq, List.getElem?_append] at ht
    split at ht
    · exact Or.inl ⟨t, ht, rfl⟩
    · rw [List.getElem?_singleton] at ht
      split at ht
      · cases ht
        exact Or.inr rfl
      · cases ht

theorem Extends.get (h : Extends s s') (ht : s.scheduledTasks[i]? = some t) :
    ∃ u, s'.scheduledTasks[i]? = some u ∧ u.uncancelled = t.uncancelled := by
  rcases h.tasks with hsame | ⟨call, heq, -⟩
  · obtain ⟨u, hu, heq⟩ := hsame.symm.get ht
    exact ⟨u, hu, heq.symm⟩
  · obtain ⟨hi, -⟩ := List.getElem?_eq_some_iff.1 ht
    refine ⟨t, ?_, rfl⟩
    rw [heq, List.getElem?_append_left hi, ht]

theorem task_stays (hs : s.Coherent) (h : Effect s a s')
    (ht : s.scheduledTasks[i]? = some t) :
    ∃ u, s'.scheduledTasks[i]? = some u ∧ u.call = t.call
      ∧ u.lane = t.lane := by
  rcases effect_shape hs h with ⟨hext, -⟩ | ⟨m, v, p, hmoves⟩
  · obtain ⟨u, hu, heq⟩ := hext.get ht
    obtain ⟨hcall, hlane, -⟩ := ScheduledTask.eq_of_uncancelled heq
    exact ⟨u, hu, hcall, hlane⟩
  · by_cases him : i = m
    · subst him
      have hv := hmoves.task
      rw [ht] at hv
      cases hv
      obtain ⟨u, hu, heq⟩ := hmoves.move.get_self ht
      obtain ⟨hcall, hlane, -⟩ := ScheduledTask.eq_of_uncancelled heq
      exact ⟨u, hu, hcall, hlane⟩
    · obtain ⟨u, hu, heq⟩ := hmoves.move.get_of_ne him ht
      obtain ⟨hcall, hlane, -⟩ := ScheduledTask.eq_of_uncancelled heq
      exact ⟨u, hu, hcall, hlane⟩

end OrchestratorState

end WeaveRuntime.Tools
