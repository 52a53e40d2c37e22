/-
Lane mutual exclusion.

A task waits for the tasks that overlapped its lane and were not done
when it was scheduled, and the set is never revisited. That is admission
by arrival order: each state reads as an admission board (`board`), and
each step of the orchestrator is a few steps of the abstract scheduler
or none (`board_step`). Ordering and exclusion between TASKS are then
the library's.

# Tasks and lifecycle events

A call is in flight between its `ExecutionStarted` event and its recorded
outcome. A task that is done may still be in flight by its events: an
exception escaped its body, so no outcome was recorded. That is the only
way two overlapping calls come to be in flight together
(`exclusive_step`), and it takes a later start.
-/
import WeaveRuntime.Lib.Admission
import WeaveRuntime.Tools.Orchestration.Shape

namespace WeaveRuntime.Tools

open Lib
open ScheduledTask (eq_of_uncancelled)

-- ========= overlapping

theorem lanesOverlap_comm (left right : ToolSchedulerLane) :
    lanesOverlap left right = lanesOverlap right left := by
  have hshare : (left.domains.any fun d => d ∈ right.domains)
      = right.domains.any fun d => d ∈ left.domains := by
    rw [Bool.eq_iff_iff]
    simp only [List.any_eq_true, decide_eq_true_eq]
    constructor
    · intro h
      obtain ⟨d, hl, hr⟩ := h
      exact ⟨d, hr, hl⟩
    · intro h
      obtain ⟨d, hr, hl⟩ := h
      exact ⟨d, hl, hr⟩
  unfold lanesOverlap
  simp only [hshare, or_comm (a := left.laneKind = .exclusive),
    or_comm (a := left.laneKind = .concurrent),
    or_comm (a := left.domains = [])]

def Overlap (left right : Option ToolSchedulerLane) : Prop :=
  ∃ l r, left = some l ∧ right = some r ∧ lanesOverlap l r = true

theorem Overlap.symm {left right : Option ToolSchedulerLane}
    (h : Overlap left right) : Overlap right left := by
  obtain ⟨l, r, hl, hr, ho⟩ := h
  exact ⟨r, l, hr, hl, by rw [lanesOverlap_comm]; exact ho⟩

namespace OrchestratorState

variable {s s' : OrchestratorState}

-- =========== the board

def boardPhase : TaskPhase → Admission.JobPhase
  | .created => .queued
  | .waiting => .queued
  | .running => .running
  | .done => .finished

/-- A task as a job: begun when its `ExecutionStarted` event is out. -/
def job (s : OrchestratorState) (t : ScheduledTask) :
    Admission.Job (Option ToolSchedulerLane) :=
  { lane := t.lane, phase := boardPhase t.phase, waits := t.waitFor
    begun := decide (t.call.replayIndex ∈ s.startOrder) }

def board (s : OrchestratorState) :
    Admission.Board (Option ToolSchedulerLane) :=
  s.scheduledTasks.map s.job

variable {a : Action} {i : Nat} {t u : ScheduledTask}

theorem board_get (ht : s.scheduledTasks[i]? = some t) :
    s.board[i]? = some (s.job t) := by
  unfold board
  rw [List.getElem?_map, ht]
  rfl

/-- Only calls of tasks past their wait have started. -/
def StartsKnown (s : OrchestratorState) : Prop :=
  ∀ k ∈ s.startOrder, ∃ (i : Nat) (t : ScheduledTask),
    s.scheduledTasks[i]? = some t ∧ t.call.replayIndex = k
      ∧ (t.phase = .running ∨ t.phase = .done)

theorem job_congr (hstart : s'.startOrder = s.startOrder)
    (h : u.uncancelled = t.uncancelled) : s'.job u = s.job t := by
  obtain ⟨hcall, hlane, hwait, hphase⟩ := eq_of_uncancelled h
  unfold job
  rw [hcall, hlane, hwait, hphase, hstart]

theorem board_congr (hstart : s'.startOrder = s.startOrder)
    (h : SameTasks s.scheduledTasks s'.scheduledTasks) :
    s'.board = s.board := by
  refine List.ext_getElem? fun i => ?_
  unfold board
  rw [List.getElem?_map, List.getElem?_map]
  have hi := congrArg (fun l => l[i]?) h
  simp only [List.getElem?_map] at hi
  cases hu : s'.scheduledTasks[i]? with
  | none =>
    rw [hu] at hi
    rw [Option.map_eq_none_iff.1 hi.symm]
    rfl
  | some u =>
    obtain ⟨t, ht, heq⟩ := h.get hu
    rw [ht, Option.map_some, Option.map_some, job_congr hstart heq]

theorem board_moves (hs : s.Coherent) {p : TaskPhase}
    (ht : s.scheduledTasks[i]? = some t) (hm : TaskMove s s' i t p)
    (hstart : ∀ k, k ≠ t.call.replayIndex →
      (k ∈ s'.startOrder ↔ k ∈ s.startOrder)) :
    s'.board = s.board.set i
      { s.job t with
        phase := boardPhase p
        begun := decide (t.call.replayIndex ∈ s'.startOrder) } := by
  have hlen : s'.scheduledTasks.length = s.scheduledTasks.length := by
    rw [hm.tasks.length, List.length_modify]
  refine List.ext_getElem? fun j => ?_
  by_cases hj : j < s.scheduledTasks.length
  · obtain ⟨v, hv⟩ : ∃ v, s.scheduledTasks[j]? = some v :=
      ⟨_, List.getElem?_eq_getElem hj⟩
    by_cases hji : j = i
    · subst hji
      rw [ht] at hv
      cases hv
      obtain ⟨u, hu, heq⟩ := hm.get_self ht
      obtain ⟨hcall, hlane, hwait, hphase⟩ :=
        eq_of_uncancelled heq
      rw [board_get hu, List.getElem?_set_self (by simpa [board] using hj)]
      unfold job
      rw [hcall, hlane, hwait, hphase]
    · obtain ⟨u, hu, heq⟩ := hm.get_of_ne hji hv
      obtain ⟨hcall, hlane, hwait, hphase⟩ :=
        eq_of_uncancelled heq
      rw [List.getElem?_set_ne (Ne.symm hji), board_get hu, board_get hv]
      unfold job
      rw [hcall, hlane, hwait, hphase]
      have hk := hstart _ (hs.task_ne hji hv ht).1
      simp only [hk]
  · rw [List.getElem?_eq_none, List.getElem?_eq_none]
    · simp only [List.length_set, board, List.length_map]
      omega
    · simp only [board, List.length_map]
      omega

theorem newTask_covers {call : ResolvedToolCall}
    (ht : s.scheduledTasks[i]? = some t)
    (hov : Overlap t.lane call.schedulerLane) (hnd : t.phase ≠ .done) :
    i ∈ (s.newTask call).waitFor := by
  obtain ⟨l, r, hl, hr, ho⟩ := hov
  obtain ⟨hi, -⟩ := List.getElem?_eq_some_iff.1 ht
  show i ∈ dependenciesForLane s.scheduledTasks call.schedulerLane
  rw [hr]
  unfold dependenciesForLane
  rw [List.mem_filter, List.mem_range]
  refine ⟨hi, ?_⟩
  rw [ht]
  simp [ScheduledTask.blocks, hnd, hl, ho]

/-- The simulation: a step of the orchestrator is a run of the abstract
scheduler. -/
theorem board_step (hs : s.Coherent) (hknown : s.StartsKnown)
    (h : Effect s a s') :
    Relation.ReflTransGen (Admission.Step Overlap) s.board s'.board := by
  rcases effect_shape hs h with ⟨hext, -⟩ | ⟨i, t, p, hmoves⟩
  · rcases hext.tasks with hsame | ⟨call, htasks, hlater⟩
    · rw [board_congr hext.startOrder hsame]
    · have hfresh : call.replayIndex ∉ s.startOrder := by
        intro hk
        obtain ⟨i, t, ht, heq, -⟩ := hknown _ hk
        have := (hlater _ (hs.mem_of_task ht).1).1
        omega
      have hboard : s'.board = s.board ++ [s.job (s.newTask call)] := by
        unfold board
        rw [htasks, List.map_append, List.map_singleton]
        rw [List.map_congr_left fun t _ => job_congr hext.startOrder rfl,
          job_congr hext.startOrder rfl]
      rw [hboard]
      refine Relation.ReflTransGen.single (.arrive _ rfl ?_ ?_)
      · exact decide_eq_false hfresh
      · intro i k hk hov hnf
        unfold board at hk
        rw [List.getElem?_map] at hk
        obtain ⟨t, ht, rfl⟩ := Option.map_eq_some_iff.1 hk
        refine newTask_covers ht hov ?_
        intro hd
        exact hnf (by simp [job, boardPhase, hd])
  · have ht := hmoves.task
    have hget := board_get ht
    have hnf : (s.job t).phase ≠ .finished := by
      intro hf
      apply hmoves.unfinished
      cases hp : t.phase with
      | done => rfl
      | _ =>
        simp only [job, hp, boardPhase] at hf
        cases hf
    rcases hmoves.starts with ⟨hstart, hphase⟩ | ⟨hlic, hphase, hstart⟩
    · have hboard := board_moves hs ht hmoves.move
        (fun k _ => by rw [hstart])
      rw [hboard, hstart]
      rcases hphase with rfl | ⟨hcreated, rfl⟩
      · exact Relation.ReflTransGen.single (.finish hget hnf)
      · -- a task that parks is as queued as before
        have hsame : { s.job t with
            phase := boardPhase .waiting
            begun := decide (t.call.replayIndex ∈ s.startOrder) }
            = s.job t := by
          simp [job, boardPhase, hcreated]
        obtain ⟨hlt, heq⟩ := List.getElem?_eq_some_iff.1 hget
        rw [hsame, ← heq, List.set_getElem_self]
    · have hboard := board_moves hs ht hmoves.move (by
        intro k hk
        rw [hstart]
        simp [hk])
      have hbegun : decide (t.call.replayIndex ∈ s'.startOrder) = true := by
        simp [hstart]
      have hqueued : (s.job t).phase = .queued := by
        rcases hlic.phase with hp | hp
        · simp [job, hp, boardPhase]
        · simp [job, hp, boardPhase]
      have hstep : Admission.Step Overlap s.board
          (s.board.set i { s.job t with phase := .running, begun := true }) := by
        refine .start hget hqueued ?_
        intro d hd k hk
        unfold board at hk
        rw [List.getElem?_map] at hk
        obtain ⟨u, hu, rfl⟩ := Option.map_eq_some_iff.1 hk
        simp [job, hlic.allDone hd hu, boardPhase]
      rw [hboard, hbegun]
      rcases hphase with ⟨rfl, -⟩ | ⟨rfl, -⟩
      · refine Relation.ReflTransGen.tail (.single hstep) ?_
        have hlt : i < s.board.length :=
          (List.getElem?_eq_some_iff.1 hget).1
        have hfin : Admission.Step Overlap _ _ := Admission.Step.finish
          (b := s.board.set i
            { s.job t with phase := .running, begun := true })
          (List.getElem?_set_self hlt) (by simp)
        rw [List.set_set] at hfin
        exact hfin
      · exact Relation.ReflTransGen.single hstep

-- ========= start order

/-- What every reachable state satisfies of its lanes. -/
structure LaneOrdered (s : OrchestratorState) : Prop where
  coherent : s.Coherent
  known : s.StartsKnown
  ordered : Admission.Ordered Overlap s.board

theorem startsKnown_step (hs : s.Coherent) (hknown : s.StartsKnown)
    (h : Effect s a s') : s'.StartsKnown := by
  intro k hk
  rcases effect_shape hs h with ⟨hext, -⟩ | ⟨i, t, p, hmoves⟩
  · rw [hext.startOrder] at hk
    obtain ⟨i, t, ht, hidx, hphase⟩ := hknown k hk
    obtain ⟨u, hu, heq⟩ := hext.get ht
    obtain ⟨hcall, -, -, hp⟩ := eq_of_uncancelled heq
    exact ⟨i, u, hu, by rw [hcall, hidx], by rw [hp]; exact hphase⟩
  · have ht := hmoves.task
    -- an earlier start, of another task or of the moved one
    have hold : k ∈ s.startOrder → ∃ (j : Nat) (u : ScheduledTask),
        s'.scheduledTasks[j]? = some u ∧ u.call.replayIndex = k
          ∧ (u.phase = .running ∨ u.phase = .done) := by
      intro hk
      obtain ⟨j, v, hv, hidx, hphase⟩ := hknown k hk
      by_cases hji : j = i
      · subst hji
        rw [ht] at hv
        cases hv
        obtain ⟨u, hu, heq⟩ := hmoves.move.get_self ht
        obtain ⟨hcall, -, -, hp⟩ := eq_of_uncancelled heq
        refine ⟨j, u, hu, by rw [hcall, ← hidx], ?_⟩
        rcases hmoves.starts with
          ⟨-, rfl | ⟨hc, -⟩⟩ | ⟨-, ⟨rfl, -⟩ | ⟨rfl, -⟩, -⟩
        · exact Or.inr hp
        · rw [hc] at hphase
          rcases hphase with h | h
          · cases h
          · cases h
        · exact Or.inr hp
        · exact Or.inl hp
      · obtain ⟨u, hu, heq⟩ := hmoves.move.get_of_ne hji hv
        obtain ⟨hcall, -, -, hp⟩ := eq_of_uncancelled heq
        exact ⟨j, u, hu, by rw [hcall, hidx], by rw [hp]; exact hphase⟩
    rcases hmoves.starts with ⟨hstart, -⟩ | ⟨-, hp, hstart⟩
    · rw [hstart] at hk
      exact hold hk
    · rw [hstart, List.mem_append, List.mem_singleton] at hk
      rcases hk with hk | rfl
      · exact hold hk
      · obtain ⟨u, hu, heq⟩ := hmoves.move.get_self ht
        obtain ⟨hcall, -, -, hphase⟩ := eq_of_uncancelled heq
        refine ⟨i, u, hu, by rw [hcall], ?_⟩
        rcases hp with ⟨rfl, -⟩ | ⟨rfl, -⟩
        · exact Or.inr hphase
        · exact Or.inl hphase

theorem laneOrdered_init : LaneOrdered {} := by
  refine ⟨coherent_init, ?_, Admission.ordered_nil⟩
  intro k hk
  cases hk

theorem LaneOrdered.effect (hs : s.LaneOrdered) (h : Effect s a s') :
    s'.LaneOrdered :=
  ⟨hs.coherent.effect h, startsKnown_step hs.coherent hs.known h,
    hs.ordered.steps (board_step hs.coherent hs.known h)⟩

theorem LaneOrdered.step (hs : s.LaneOrdered)
    (h : orchestrator.step s a = some s') : s'.LaneOrdered :=
  hs.effect (effect_of_step hs.coherent h)

/-- A call that has not begun comes later than every overlapping one that
has. -/
theorem LaneOrdered.earlier (hs : s.LaneOrdered) {j : Nat}
    (ht : s.scheduledTasks[i]? = some t) (hu : s.scheduledTasks[j]? = some u)
    (hov : Overlap t.lane u.lane)
    (hstarted : t.call.replayIndex ∈ s.startOrder)
    (hqueued : u.phase = .created ∨ u.phase = .waiting) : i < j := by
  rcases Nat.lt_trichotomy i j with h | rfl | h
  · exact h
  · -- a started call is past its wait
    obtain ⟨k, v, hv, hidx, hphase⟩ := hs.known _ hstarted
    rw [ht] at hu
    cases hu
    by_cases hki : k = i
    · subst hki
      rw [ht] at hv
      cases hv
      rcases hqueued with h | h
      · rw [h] at hphase
        simp at hphase
      · rw [h] at hphase
        simp at hphase
    · exact absurd hidx (hs.coherent.task_ne hki hv ht).1
  · -- the later one would have waited
    have hq : (s.job u).phase = .queued := by
      rcases hqueued with h' | h'
      · simp [job, h', boardPhase]
      · simp [job, h', boardPhase]
    have hnb := hs.ordered.start_in_order h (board_get hu) (board_get ht)
      hov.symm hq
    simp [job, hstarted] at hnb

def StartsInOrder (s : OrchestratorState) : Prop :=
  s.startOrder.Pairwise fun a b => ∀ (i j : Nat) (t u : ScheduledTask),
    s.scheduledTasks[i]? = some t → s.scheduledTasks[j]? = some u →
    t.call.replayIndex = a → u.call.replayIndex = b →
    Overlap t.lane u.lane → a < b

theorem startsInOrder_step (hs : s.LaneOrdered) (hord : s.StartsInOrder)
    (h : Effect s a s') : s'.StartsInOrder := by
  -- started calls belong to old tasks
  have hback : ∀ k ∈ s.startOrder, ∀ (i : Nat) (u : ScheduledTask),
      s'.scheduledTasks[i]? = some u → u.call.replayIndex = k →
      ∃ t, s.scheduledTasks[i]? = some t ∧ t.call = u.call
        ∧ t.lane = u.lane := by
    intro k hk i u hu hidx
    obtain ⟨j, v, hv, hvidx, -⟩ := hs.known k hk
    have hs' := hs.effect h
    obtain ⟨w, hw, hcall, hlane⟩ := task_stays hs.coherent h hv
    by_cases hij : i = j
    · subst hij
      rw [hu] at hw
      cases hw
      exact ⟨v, hv, hcall.symm, hlane.symm⟩
    · have hne := (hs'.coherent.task_ne hij hu hw).1
      rw [hidx, hcall, hvidx] at hne
      exact absurd rfl hne
  have hold : s.startOrder.Pairwise fun a b =>
      ∀ (i j : Nat) (t u : ScheduledTask),
      s'.scheduledTasks[i]? = some t → s'.scheduledTasks[j]? = some u →
      t.call.replayIndex = a → u.call.replayIndex = b →
      Overlap t.lane u.lane → a < b := by
    refine List.Pairwise.imp_of_mem ?_ hord
    intro a b ha hb hab i j t u ht hu hta hub hov
    obtain ⟨t', ht', htc, htl⟩ := hback a ha i t ht hta
    obtain ⟨u', hu', huc, hul⟩ := hback b hb j u hu hub
    exact hab i j t' u' ht' hu' (by rw [htc, hta]) (by rw [huc, hub])
      (by rw [htl, hul]; exact hov)
  unfold StartsInOrder
  rcases effect_shape hs.coherent h with ⟨hext, -⟩ | ⟨m, v, p, hmoves⟩
  · rw [hext.startOrder]
    exact hold
  · rcases hmoves.starts with ⟨hstart, -⟩ | ⟨hlic, -, hstart⟩
    · rw [hstart]
      exact hold
    · rw [hstart, List.pairwise_append]
      refine ⟨hold, List.pairwise_singleton _ _, ?_⟩
      intro a ha b hb i j t u ht hu hta hub hov
      rw [List.mem_singleton] at hb
      -- `u` is the task that starts now
      obtain ⟨t', ht', htc, htl⟩ := hback a ha i t ht hta
      obtain ⟨w, hw, heq⟩ := hmoves.move.get_self hmoves.task
      obtain ⟨hcall, hlane, -⟩ := eq_of_uncancelled heq
      have hjm : j = m := by
        by_contra hne
        have := ((hs.effect h).coherent.task_ne hne hu hw).1
        rw [hub, hb, hcall] at this
        exact this rfl
      subst hjm
      rw [hu] at hw
      cases hw
      have hlt := hs.earlier ht' hmoves.task
        (by rw [htl]; rw [hlane] at hov; exact hov)
        (by rw [htc, hta]; exact ha) hlic.phase
      have hidx := (hs.coherent.task_order hlt ht' hmoves.task).1
      rw [htc, hta] at hidx
      rw [hb]
      exact hidx

-- =========== exclusion

def InFlight (s : OrchestratorState) (t : ScheduledTask) : Prop :=
  t.call.replayIndex ∈ s.startOrder
    ∧ s.outcomes.get? t.call.replayIndex = none

/-- No two overlapping calls are in flight. -/
def Exclusive (s : OrchestratorState) : Prop :=
  ∀ (i j : Nat) (t u : ScheduledTask), i ≠ j →
    s.scheduledTasks[i]? = some t → s.scheduledTasks[j]? = some u →
    Overlap t.lane u.lane → ¬ (s.InFlight t ∧ s.InFlight u)

/-- The step does not begin a call while an overlapping call's task has
ended and left the call in flight. -/
def KeepsExclusion (s : OrchestratorState) (a : Action) : Prop :=
  ∀ (i j : Nat) (t u : ScheduledTask), s.scheduledTasks[i]? = some t →
    s.scheduledTasks[j]? = some u → t.phase = .done → s.InFlight t →
    Overlap t.lane u.lane → ¬ s.Begins j u a

/-- In a lane-ordered state, the earlier of two overlapping calls in
flight belongs to a task that has ended. -/
theorem LaneOrdered.done_of_inFlight (hs : s.LaneOrdered) {j : Nat}
    (hij : i < j) (ht : s.scheduledTasks[i]? = some t)
    (hu : s.scheduledTasks[j]? = some u) (hov : Overlap t.lane u.lane)
    (hfu : s.InFlight u) : t.phase = .done := by
  have hfin := hs.ordered.finished_of_begun hij (board_get ht) (board_get hu)
    hov (by simp [job, hfu.1])
  cases hp : t.phase with
  | done => rfl
  | _ =>
    simp only [job, hp, boardPhase] at hfin
    cases hfin

theorem inFlight_before (hs : s.LaneOrdered) (h : Effect s a s') {j : Nat}
    (hu : s'.scheduledTasks[j]? = some u) (hf : s'.InFlight u) :
    ∃ t, s.scheduledTasks[j]? = some t ∧ t.call = u.call
      ∧ t.lane = u.lane ∧ (s.InFlight t ∨ (s.Begins j t a
        ∧ u.phase = .running)) := by
  rcases effect_shape hs.coherent h with ⟨hext, -⟩ | ⟨i, v, p, hmoves⟩
  · obtain ⟨hmem, hout⟩ := hf
    rw [hext.startOrder] at hmem
    obtain ⟨k, t, ht, hidx, -⟩ := hs.known _ hmem
    obtain ⟨w, hw, hcall, hlane⟩ := task_stays hs.coherent h ht
    have hkj : k = j := by
      by_contra hne
      have := ((hs.effect h).coherent.task_ne hne hw hu).1
      rw [hcall, hidx] at this
      exact this rfl
    subst hkj
    rw [hu] at hw
    cases hw
    refine ⟨t, ht, hcall.symm, hlane.symm, Or.inl ⟨by rw [hidx]; exact hmem, ?_⟩⟩
    rw [← hext.outcome _ (hs.coherent.mem_of_task ht).1, ← hcall]
    exact hout
  · have hv := hmoves.task
    by_cases hji : j = i
    · subst hji
      obtain ⟨w, hw, heq⟩ := hmoves.move.get_self hv
      rw [hu] at hw
      cases hw
      obtain ⟨hcall, hlane, -, hphase⟩ := eq_of_uncancelled heq
      refine ⟨v, hv, hcall.symm, hlane.symm, ?_⟩
      rcases hmoves.starts with ⟨hstart, -⟩ | ⟨hlic, hp, -⟩
      · -- the call was in flight: its outcome is not recorded yet
        refine Or.inl ⟨?_, ?_⟩
        · rw [← hstart, ← hcall]
          exact hf.1
        · have hok := hs.coherent.task j v hv
          unfold TaskOk at hok
          cases hvp : v.phase with
          | done => exact absurd hvp hmoves.unfinished
          | _ =>
            rw [hvp] at hok
            exact hok.outcome
      · rcases hp with ⟨-, hset⟩ | ⟨rfl, hbeg⟩
        · -- an answer at the start settles the call
          exfalso
          obtain ⟨o, ho, -⟩ := hset.outcome
          have hnone := hf.2
          rw [hcall, ho] at hnone
          cases hnone
        · exact Or.inr ⟨hbeg, hphase⟩
    · obtain ⟨t, ht, heq⟩ : ∃ t, s.scheduledTasks[j]? = some t
          ∧ u.uncancelled = t.uncancelled := by
        rcases hmoves.move.task_cases hv hu with ⟨hj, -⟩ | ⟨-, t, ht, heq⟩
        · exact absurd hj hji
        · exact ⟨t, ht, heq⟩
      obtain ⟨hcall, hlane, -, -⟩ := eq_of_uncancelled heq
      have hne := (hs.coherent.task_ne hji ht hv).1
      refine ⟨t, ht, hcall.symm, hlane.symm, Or.inl ⟨?_, ?_⟩⟩
      · have hmem := hf.1
        rcases hmoves.starts with ⟨hstart, -⟩ | ⟨-, -, hstart⟩
        · rw [hstart, hcall] at hmem
          exact hmem
        · rw [hstart, hcall, List.mem_append, List.mem_singleton] at hmem
          rcases hmem with hmem | hmem
          · exact hmem
          · exact absurd hmem hne
      · rw [← hmoves.move.outcome_of_ne _ hne, ← hcall]
        exact hf.2

theorem inFlight_stays (hs : s.LaneOrdered) (h : Effect s a s')
    (ht : s.scheduledTasks[i]? = some t) (hdone : t.phase = .done)
    (hf : s.InFlight t) :
    ∃ u, s'.scheduledTasks[i]? = some u ∧ u.call = t.call
      ∧ u.lane = t.lane ∧ s'.InFlight u := by
  obtain ⟨u, hu, hcall, hlane⟩ := task_stays hs.coherent h ht
  refine ⟨u, hu, hcall, hlane, ?_⟩
  unfold InFlight
  rw [hcall]
  rcases effect_shape hs.coherent h with ⟨hext, -⟩ | ⟨m, v, p, hmoves⟩
  · rw [hext.startOrder, hext.outcome _ (hs.coherent.mem_of_task ht).1]
    exact hf
  · have him : i ≠ m := by
      intro him
      subst him
      have hv := hmoves.task
      rw [ht] at hv
      cases hv
      exact hmoves.unfinished hdone
    have hne := (hs.coherent.task_ne him ht hmoves.task).1
    rw [hmoves.move.outcome_of_ne _ hne]
    refine ⟨?_, hf.2⟩
    rcases hmoves.starts with ⟨hstart, -⟩ | ⟨-, -, hstart⟩
    · rw [hstart]
      exact hf.1
    · rw [hstart]
      exact List.mem_append_left _ hf.1

theorem begins_inFlight (hs : s.LaneOrdered) (h : Effect s a s') {j : Nat}
    (hu : s.scheduledTasks[j]? = some u) (hb : s.Begins j u a) :
    ∃ w, s'.scheduledTasks[j]? = some w ∧ w.call = u.call
      ∧ w.lane = u.lane ∧ s'.InFlight w := by
  obtain ⟨w, hw, hcall, hlane⟩ := task_stays hs.coherent h hu
  refine ⟨w, hw, hcall, hlane, ?_⟩
  have hresult : s' = (s.markStarted u.call).setPhase j .running := by
    obtain ⟨hlic, hc, hpre⟩ := hb
    cases hlic with
    | firstStep ck hp hwait =>
      cases h with
      | dropped _ t _ ht _ hc' =>
        rw [hu] at ht
        cases ht
        exact absurd hc hc'
      | parked _ t _ ht _ _ hw' =>
        rw [hu] at ht
        cases ht
        exact absurd hwait hw'
      | started _ _ t ht hbeg =>
        cases hbeg.licensed
        rw [hu] at ht
        cases ht
        rfl
      | refused _ _ t o n ht _ hlic' hpre' _ _ =>
        cases hlic'
        rw [hu] at ht
        cases ht
        exact absurd hpre hpre'
    | resume ck hp hdone =>
      cases h with
      | started _ _ t ht hbeg =>
        cases hbeg.licensed
        rw [hu] at ht
        cases ht
        rfl
      | refused _ _ t o n ht _ hlic' hpre' _ _ =>
        cases hlic'
        rw [hu] at ht
        cases ht
        exact absurd hpre hpre'
      | cancelled _ t _ o n ht _ hc' _ _ _ =>
        rw [hu] at ht
        cases ht
        exact absurd hc hc'
  have hok := hs.coherent.task j u hu
  unfold TaskOk at hok
  unfold InFlight
  rw [hcall, hresult, setPhase_startOrder, startOrder_markStarted]
  refine ⟨by simp, ?_⟩
  rcases hb.licensed.phase with hp | hp
  · rw [hp] at hok
    exact hok.outcome
  · rw [hp] at hok
    exact hok.outcome

/-- From an exclusive state, a step keeps exclusion exactly when it does
not begin a call over an ended one still in flight. -/
theorem exclusive_step (hs : s.LaneOrdered) (hex : s.Exclusive)
    (h : Effect s a s') : s'.Exclusive ↔ s.KeepsExclusion a := by
  constructor
  · intro hex' i j t u ht hu hdone hf hov hb
    have hij : i ≠ j := by
      intro hij
      subst hij
      rw [ht] at hu
      cases hu
      rcases hb.licensed.phase with hp | hp
      · rw [hp] at hdone
        cases hdone
      · rw [hp] at hdone
        cases hdone
    obtain ⟨t', ht', -, htl, hft⟩ := inFlight_stays hs h ht hdone hf
    obtain ⟨u', hu', -, hul, hfu⟩ := begins_inFlight hs h hu hb
    exact hex' i j t' u' hij ht' hu' (by rw [htl, hul]; exact hov)
      ⟨hft, hfu⟩
  · intro hkeep
    -- of two such calls take the earlier one first
    have hlt : ∀ (i j : Nat) (t u : ScheduledTask), i < j →
        s'.scheduledTasks[i]? = some t → s'.scheduledTasks[j]? = some u →
        Overlap t.lane u.lane → ¬ (s'.InFlight t ∧ s'.InFlight u) := by
      intro i j t u hij ht hu hov hboth
      obtain ⟨hft, hfu⟩ := hboth
      have htdone := (hs.effect h).done_of_inFlight hij ht hu hov hfu
      obtain ⟨t', ht', -, htl, hbt⟩ := inFlight_before hs h ht hft
      obtain ⟨u', hu', -, hul, hbu⟩ := inFlight_before hs h hu hfu
      have hov' : Overlap t'.lane u'.lane := by
        rw [htl, hul]
        exact hov
      have hft' : s.InFlight t' := by
        rcases hbt with hf | ⟨-, hrun⟩
        · exact hf
        · rw [htdone] at hrun
          cases hrun
      rcases hbu with hfu' | ⟨hb, -⟩
      · exact hex i j t' u' (Nat.ne_of_lt hij) ht' hu' hov' ⟨hft', hfu'⟩
      · refine hkeep i j t' u' ht' hu' ?_ hft' hov' hb
        -- the beginning call waited for the earlier one
        by_contra hnd
        have hlic := hb.licensed
        have hpair := hs.ordered.pair i j _ _ hij (board_get ht')
          (board_get hu') hov'
        rcases hpair with hfin | ⟨hwait, -⟩
        · apply hnd
          cases hp : t'.phase with
          | done => rfl
          | _ =>
            simp only [job, hp, boardPhase] at hfin
            cases hfin
        · exact hnd (hlic.allDone hwait ht')
    intro i j t u hij ht hu hov hboth
    rcases Nat.lt_or_gt_of_ne hij with h' | h'
    · exact hlt i j t u h' ht hu hov hboth
    · exact hlt j i u t h' hu ht hov.symm ⟨hboth.2, hboth.1⟩

/-- Every started call whose task is done has its outcome. -/
def Landed (s : OrchestratorState) : Prop :=
  ∀ (i : Nat) (t : ScheduledTask), s.scheduledTasks[i]? = some t →
    t.phase = .done → ¬ s.InFlight t

theorem landed_step (hs : s.LaneOrdered) (hland : s.Landed)
    (h : Effect s a s') (hno : s.NoEscape a) : s'.Landed := by
  intro i u hu hdone hf
  obtain ⟨t, ht, hcall, -, hbefore⟩ := inFlight_before hs h hu hf
  rcases hbefore with hft | ⟨-, hrun⟩
  · rcases effect_shape hs.coherent h with ⟨hext, -⟩ | ⟨m, v, p, hmoves⟩
    · rcases hext.task_cases hu with ⟨t', ht', heq⟩ | hnew
      · rw [ht] at ht'
        cases ht'
        obtain ⟨-, -, -, hphase⟩ := eq_of_uncancelled heq
        exact hland i t ht (by rw [← hphase, hdone]) hft
      · rw [hdone] at hnew
        cases hnew
    · rcases hmoves.move.task_cases hmoves.task hu with
        ⟨rfl, heq⟩ | ⟨-, t', ht', heq⟩
      · have hv := hmoves.task
        rw [ht] at hv
        cases hv
        obtain ⟨-, -, -, hphase⟩ := eq_of_uncancelled heq
        rcases hmoves.ends (by rw [← hdone, hphase]) with hset | hc | hesc
        · obtain ⟨o, ho, -⟩ := hset.outcome
          have hnone := hf.2
          rw [← hcall, ho] at hnone
          cases hnone
        · -- a created task's call has not started
          obtain ⟨k, w, hw, hidx, hphase'⟩ := hs.known _ hft.1
          have hki : k = i := by
            by_contra hne
            exact (hs.coherent.task_ne hne hw ht).1 hidx
          subst hki
          rw [ht] at hw
          cases hw
          rw [hc] at hphase'
          simp at hphase'
        · exact hesc hno
      · rw [ht] at ht'
        cases ht'
        obtain ⟨-, -, -, hphase⟩ := eq_of_uncancelled heq
        exact hland i t ht (by rw [← hphase, hdone]) hft
  · rw [hdone] at hrun
    cases hrun

/-- Lane mutual exclusion over whole runs. Overlapping calls start in
replay order on every run. No two are in flight together exactly when no
call begins over an ended one still in flight; a run in which nothing
escapes a tool body has none. -/
theorem lanes_exclude (as : List Action) :
    (∀ s, orchestrator.Visits {} as s → s.StartsInOrder)
      ∧ ((∀ s, orchestrator.Visits {} as s → s.Exclusive)
        ↔ ∀ s a s', orchestrator.Takes {} as s a s' → s.KeepsExclusion a)
      ∧ ((∀ s a s', orchestrator.Takes {} as s a s' → s.NoEscape a) →
        ∀ s, orchestrator.Visits {} as s → s.Exclusive) := by
  have hinit : Exclusive {} := by
    intro i j t u _ ht
    simp at ht
  have hlane : ∀ s a s', LaneOrdered s → orchestrator.step s a = some s' →
      LaneOrdered s' := fun s a s' hs hstep => hs.step hstep
  have hiff : (∀ s, orchestrator.Visits {} as s → s.Exclusive)
      ↔ ∀ s a s', orchestrator.Takes {} as s a s' → s.KeepsExclusion a :=
    System.visits_iff_takes hlane
      (fun s a s' hs hex hstep =>
        exclusive_step hs hex (effect_of_step hs.coherent hstep))
      laneOrdered_init hinit
  refine ⟨?_, hiff, ?_⟩
  · intro s hv
    have hboth := System.visits_invariant
      (I := fun s => LaneOrdered s ∧ StartsInOrder s)
      (fun s a s' hs hstep => ⟨hs.1.step hstep,
        startsInOrder_step hs.1 hs.2 (effect_of_step hs.1.coherent hstep)⟩)
      ⟨laneOrdered_init, List.Pairwise.nil⟩ hv
    exact hboth.2
  · intro hno
    have hland : ∀ s, orchestrator.Visits {} as s → s.Landed := by
      intro s hv
      refine System.visits_of_takes (G := NoEscape) hlane
        (fun s a s' hs hl hstep hg =>
          landed_step hs hl (effect_of_step hs.coherent hstep) hg)
        laneOrdered_init ?_ hno hv
      intro i t ht
      simp at ht
    refine hiff.2 ?_
    intro s a s' htake i j t u ht _ hdone hf
    exact absurd hf (hland s htake.visits.1 i t ht hdone)

end OrchestratorState

section FixedRuns

/-! Two exclusive calls; the first is a shell tool under the exit-code
classifier whose result carries no exit code. -/

def shellTool : Resolution :=
  { resolutionStatus := .executable, canonicalToolName := some "bash"
    toolDefinition := some { name := "bash" }
    resolvedSemantics := some
      { readOnly := false, concurrencySafe := false
        failurePolicy := { resultClassifier := .nonzeroExitOrException } } }

def escapedRun : List Action :=
  [.observeBegin "call-1" "bash" "message-1", .observeResolved shellTool some,
    .observeBegin "call-2" "bash" "message-1", .observeResolved shellTool some,
    .firstStep 0 some, .firstStep 1 some,
    .finish 0 { execute := .returns (.value
      (.dict [(.str "exit_code", .none)])) } some,
    .resume 1 some]

/-- Reading the exit code raises, the first call stays in flight, and the
second starts beside it. -/
theorem escaped_call_overlaps :
    ∃ s, orchestrator.run {} escapedRun = some s ∧ ¬ s.Exclusive := by
  have hview : (orchestrator.run {} escapedRun).map (fun s =>
      (s.startOrder, s.outcomes.keys, s.scheduledTasks.map fun t =>
        (t.call.replayIndex, t.lane)))
      = some ([0, 1], [], [(0, some { laneKind := .exclusive }),
        (1, some { laneKind := .exclusive })]) := by
    decide
  obtain ⟨s, hrun, hs⟩ := Option.map_eq_some_iff.1 hview
  refine ⟨s, hrun, ?_⟩
  obtain ⟨hstart, hrest⟩ := Prod.mk.inj hs
  obtain ⟨hkeys, htasks⟩ := Prod.mk.inj hrest
  have hout : ∀ k, s.outcomes.get? k = none := by
    intro k
    rw [Dict.get?_eq_none_iff, hkeys]
    simp
  have h0 := congrArg (fun l => l[0]?) htasks
  have h1 := congrArg (fun l => l[1]?) htasks
  simp only [List.getElem?_map] at h0 h1
  obtain ⟨t, ht, ht0⟩ := Option.map_eq_some_iff.1 h0
  obtain ⟨u, hu, hu0⟩ := Option.map_eq_some_iff.1 h1
  obtain ⟨hti, htl⟩ := Prod.mk.inj ht0
  obtain ⟨hui, hul⟩ := Prod.mk.inj hu0
  intro hex
  refine hex 0 1 t u (by decide) ht hu ⟨_, _, htl, hul, by decide⟩ ⟨?_, ?_⟩
  · exact ⟨by rw [hti, hstart]; decide, hout _⟩
  · exact ⟨by rw [hui, hstart]; decide, hout _⟩

end FixedRuns

end WeaveRuntime.Tools
