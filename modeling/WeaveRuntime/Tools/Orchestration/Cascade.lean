/-
What a failing call cancels.

`Task.cancel()` of a task that awaits a `gather` cancels the unfinished
children of the gather, so what one request reaches is a closure over
the waits (`CancelReaches`), and `cancels_cancelTask` says that
`cancelTask` computes exactly it.

A cascade picks its targets by the sibling policy, but the closure does
not know the policy: a queued sibling that waits for a running one takes
the running one with it. `cascade_spares_started_iff` gives the exact
condition under which the policy is respected.
-/
import WeaveRuntime.Tools.Orchestration.Shape

namespace WeaveRuntime.Tools

open Lib

-- ==== what one request reaches

/-- The cancellation requests a task has had. -/
def cancels (tasks : List ScheduledTask) (j : Nat) : Nat :=
  ((tasks[j]?).map (·.numCancelsRequested)).getD 0

/-- A cancellation of the task at `i` reaches the task at `j`: through
the waits of unfinished tasks. -/
inductive CancelReaches (tasks : List ScheduledTask) : Nat → Nat → Prop
  | self {i : Nat} {t : ScheduledTask} : tasks[i]? = some t →
      t.phase ≠ .done → CancelReaches tasks i i
  | wait {i d j : Nat} {t : ScheduledTask} : tasks[i]? = some t →
      t.phase = .waiting → d ∈ t.waitFor → CancelReaches tasks d j →
      CancelReaches tasks i j

/-- A task waits for earlier ones. -/
def WaitsBack (tasks : List ScheduledTask) : Prop :=
  ∀ (i : Nat) (t : ScheduledTask), tasks[i]? = some t →
    ∀ d ∈ t.waitFor, d < i

variable {tasks tasks' : List ScheduledTask}

theorem CancelReaches.congr (h : SameTasks tasks tasks') {i j : Nat}
    (hr : CancelReaches tasks i j) : CancelReaches tasks' i j := by
  induction hr with
  | self ht hnd =>
    obtain ⟨u, hu, heq⟩ := h.symm.get ht
    obtain ⟨-, -, -, hphase⟩ := ScheduledTask.eq_of_uncancelled heq
    exact .self hu (by rw [← hphase]; exact hnd)
  | wait ht hw hd _ ih =>
    obtain ⟨u, hu, heq⟩ := h.symm.get ht
    obtain ⟨-, -, hwait, hphase⟩ := ScheduledTask.eq_of_uncancelled heq
    exact .wait hu (by rw [← hphase]; exact hw) (by rw [← hwait]; exact hd)
      ih

theorem WaitsBack.congr (h : SameTasks tasks tasks')
    (hback : WaitsBack tasks) : WaitsBack tasks' := by
  intro i t ht d hd
  obtain ⟨u, hu, heq⟩ := h.get ht
  obtain ⟨-, -, hwait, -⟩ := ScheduledTask.eq_of_uncancelled heq
  exact hback i u hu d (by rw [← hwait]; exact hd)

theorem CancelReaches.unfinished {i j : Nat} (h : CancelReaches tasks i j) :
    ∃ t, tasks[j]? = some t ∧ t.phase ≠ .done := by
  induction h with
  | self ht hnd => exact ⟨_, ht, hnd⟩
  | wait _ _ _ _ ih => exact ih

theorem CancelReaches.last {i j : Nat} (h : CancelReaches tasks i j) :
    i = j ∨ ∃ (k : Nat) (u : ScheduledTask), tasks[k]? = some u
      ∧ u.phase = .waiting ∧ j ∈ u.waitFor := by
  induction h with
  | self _ _ => exact Or.inl rfl
  | wait ht hw hd _ ih =>
    rcases ih with rfl | h
    · exact Or.inr ⟨_, _, ht, hw, hd⟩
    · exact Or.inr h

theorem cancels_modify (tasks : List ScheduledTask) (i j : Nat)
    (hi : i < tasks.length) :
    cancels (tasks.modify i fun t =>
      { t with numCancelsRequested := t.numCancelsRequested + 1 }) j
      = cancels tasks j + if i = j then 1 else 0 := by
  unfold cancels
  rw [List.getElem?_modify]
  by_cases hij : i = j
  · subst hij
    obtain ⟨t, ht⟩ : ∃ t, tasks[i]? = some t :=
      ⟨_, List.getElem?_eq_getElem hi⟩
    simp [ht]
  · cases tasks[j]? with
    | none => simp [hij]
    | some t => simp [hij]

theorem cancels_foldl {α : Type} {f : List ScheduledTask → α →
    List ScheduledTask} {R : α → Prop} {j : Nat} (xs : List α)
    (hsame : ∀ ts x, SameTasks ts (f ts x))
    (hstep : ∀ ts, SameTasks tasks ts → ∀ x ∈ xs,
      cancels ts j ≤ cancels (f ts x) j
        ∧ (cancels ts j < cancels (f ts x) j ↔ R x)) :
    cancels tasks j ≤ cancels (xs.foldl f tasks) j
      ∧ (cancels tasks j < cancels (xs.foldl f tasks) j
        ↔ ∃ x ∈ xs, R x) := by
  induction xs generalizing tasks with
  | nil => simp
  | cons x xs ih =>
    obtain ⟨hxle, hx⟩ :=
      hstep tasks (SameTasks.refl tasks) x (List.mem_cons_self ..)
    obtain ⟨hrest, hiff⟩ := @ih (f tasks x) (by
      intro ts hts y hy
      exact hstep ts ((hsame tasks x).trans hts) y
        (List.mem_cons_of_mem _ hy))
    refine ⟨Nat.le_trans hxle hrest, ?_⟩
    rw [List.foldl_cons, List.exists_mem_cons_iff, ← hx, ← hiff]
    omega

theorem cancels_cancelTask {fuel : Nat} {i : Nat} (hfuel : i < fuel)
    (hback : WaitsBack tasks) (j : Nat) :
    cancels tasks j ≤ cancels (cancelTask fuel tasks i) j
      ∧ (cancels tasks j < cancels (cancelTask fuel tasks i) j
        ↔ CancelReaches tasks i j) := by
  induction fuel generalizing tasks i with
  | zero => omega
  | succ fuel ih =>
    unfold cancelTask
    cases ht : tasks[i]? with
    | none =>
      refine ⟨Nat.le_refl _, ?_⟩
      simp only [Nat.lt_irrefl, false_iff]
      intro h
      cases h with
      | self h' _ =>
        rw [ht] at h'
        cases h'
      | wait h' _ _ _ =>
        rw [ht] at h'
        cases h'
    | some t =>
      have hi := (List.getElem?_eq_some_iff.1 ht).1
      have hbump := cancels_modify tasks i j hi
      have hsame := sameTasks_modify_cancels tasks i
      dsimp only
      by_cases hd : t.phase = .done
      · rw [if_pos hd]
        refine ⟨Nat.le_refl _, ?_⟩
        simp only [Nat.lt_irrefl, false_iff]
        intro h
        cases h with
        | self h' hnd =>
          rw [ht] at h'
          cases h'
          exact hnd hd
        | wait h' hw _ _ =>
          rw [ht] at h'
          cases h'
          rw [hd] at hw
          cases hw
      · rw [if_neg hd]
        by_cases hw : t.phase = .waiting
        · rw [if_pos hw]
          obtain ⟨hle, hlt⟩ := cancels_foldl (j := j)
            (f := fun ts d => cancelTask fuel ts d)
            (R := fun d => CancelReaches tasks d j) t.waitFor
            (fun ts d => sameTasks_cancelTask fuel ts d) (by
              intro ts hts d hdw
              have hall := hsame.trans hts
              have hdi := hback i t ht d hdw
              obtain ⟨hle, hlt⟩ := ih (i := d) (by omega)
                (hback.congr hall)
              refine ⟨hle, hlt.trans ?_⟩
              exact ⟨fun h => h.congr hall.symm, fun h => h.congr hall⟩)
          rw [hbump] at hle hlt
          refine ⟨by omega, ?_⟩
          constructor
          · intro h
            by_cases hij : i = j
            · subst hij
              exact .self ht hd
            · rw [if_neg hij] at hlt
              obtain ⟨d, hdw, hr⟩ := hlt.1 (by omega)
              exact .wait ht hw hdw hr
          · intro h
            by_cases hij : i = j
            · rw [if_pos hij] at hle
              omega
            · rw [if_neg hij] at hle hlt
              cases h with
              | self _ _ => exact absurd rfl hij
              | wait h' _ hdw hr =>
                rw [ht] at h'
                cases h'
                have := hlt.2 ⟨_, hdw, hr⟩
                omega
        · rw [if_neg hw, hbump]
          refine ⟨by omega, ?_⟩
          constructor
          · intro h
            by_cases hij : i = j
            · subst hij
              exact .self ht hd
            · rw [if_neg hij] at h
              omega
          · intro h
            cases h with
            | self _ _ => simp
            | wait h' hw' _ _ =>
              rw [ht] at h'
              cases h'
              exact absurd hw' hw

/-- `cancelWhere` requests a cancellation of exactly what its targets
reach. -/
theorem cancels_cancelWhere {p : ScheduledTask → Bool}
    (hback : WaitsBack tasks) (j : Nat) :
    cancels tasks j ≤ cancels (OrchestratorState.cancelWhere tasks p) j
      ∧ (cancels tasks j
          < cancels (OrchestratorState.cancelWhere tasks p) j
        ↔ ∃ (i : Nat) (t : ScheduledTask), tasks[i]? = some t ∧ p t = true
          ∧ CancelReaches tasks i j) := by
  obtain ⟨hle, hlt⟩ := @cancels_foldl tasks _
    (fun ts i => if (tasks[i]?).any p then cancelTask (i + 1) ts i
      else ts)
    (fun i => (tasks[i]?).any p = true ∧ CancelReaches tasks i j) j
    (List.range tasks.length) (by
      intro ts i
      split
      · exact sameTasks_cancelTask _ ts i
      · exact SameTasks.refl ts) (by
      intro ts hts i _
      by_cases hp : (tasks[i]?).any p = true
      · obtain ⟨hle, hlt⟩ := cancels_cancelTask (Nat.lt_succ_self i)
          (hback.congr hts) j
        simp only [hp, if_true, true_and]
        refine ⟨hle, hlt.trans ?_⟩
        exact ⟨fun h => h.congr hts.symm, fun h => h.congr hts⟩
      · simp [hp])
  refine ⟨hle, hlt.trans ?_⟩
  constructor
  · intro h
    obtain ⟨i, -, hp, hr⟩ := h
    obtain ⟨t, ht, hpt⟩ := (Option.any_eq_true ..).1 hp
    exact ⟨i, t, ht, hpt, hr⟩
  · intro h
    obtain ⟨i, t, ht, hp, hr⟩ := h
    refine ⟨i, List.mem_range.2 (List.getElem?_eq_some_iff.1 ht).1, ?_, hr⟩
    simp [ht, hp]

theorem cancels_foldl_le {α : Type}
    {f : List ScheduledTask → α → List ScheduledTask} {j : Nat}
    (hf : ∀ ts x, cancels ts j ≤ cancels (f ts x) j) (xs : List α)
    (ts : List ScheduledTask) : cancels ts j ≤ cancels (xs.foldl f ts) j := by
  induction xs generalizing ts with
  | nil => exact Nat.le_refl _
  | cons x xs ih => exact Nat.le_trans (hf ts x) (ih (f ts x))

theorem cancels_cancelTask_le (fuel : Nat) (tasks : List ScheduledTask)
    (i j : Nat) : cancels tasks j ≤ cancels (cancelTask fuel tasks i) j := by
  induction fuel generalizing tasks i with
  | zero => exact Nat.le_refl _
  | succ fuel ih =>
    unfold cancelTask
    cases ht : tasks[i]? with
    | none => exact Nat.le_refl _
    | some t =>
      have hi : i < tasks.length := (List.getElem?_eq_some_iff.1 ht).1
      have hone : cancels tasks j ≤ cancels (tasks.modify i fun t =>
          { t with numCancelsRequested := t.numCancelsRequested + 1 })
          j := by
        rw [cancels_modify tasks i j hi]
        exact Nat.le_add_right _ _
      dsimp only
      split_ifs
      · exact Nat.le_refl _
      · exact Nat.le_trans hone
          (cancels_foldl_le (fun ts d => ih ts d) _ _)
      · exact hone

theorem cancels_cancelWhere_le (p : ScheduledTask → Bool) (j : Nat) :
    cancels tasks j ≤ cancels (OrchestratorState.cancelWhere tasks p) j := by
  refine cancels_foldl_le (fun ts i => ?_) (List.range tasks.length) tasks
  split_ifs
  · exact cancels_cancelTask_le _ _ _ _
  · exact Nat.le_refl _

namespace OrchestratorState

variable {s s' : OrchestratorState}

-- ==== waits and started calls

/-- What the cascade relies on: waits point back, and the started calls
are those of the running tasks, ended ones apart. -/
structure CascadeReady (s : OrchestratorState) : Prop where
  coherent : s.Coherent
  waitsBack : WaitsBack s.scheduledTasks
  started : ∀ (i : Nat) (t : ScheduledTask), s.scheduledTasks[i]? = some t →
    t.phase ≠ .done →
    (t.call.toolUseId ∈ s.startedCalls ↔ t.phase = .running)
  known : ∀ id ∈ s.startedCalls, ∃ c ∈ s.resolvedCalls, c.toolUseId = id

theorem cascadeReady_init : CascadeReady {} := by
  refine ⟨coherent_init, ?_, ?_, ?_⟩
  · intro i t ht
    simp at ht
  · intro i t ht
    simp at ht
  · intro id hid
    cases hid

theorem dependenciesForLane_lt {lane : Option ToolSchedulerLane} {d : Nat}
    (h : d ∈ dependenciesForLane tasks lane) : d < tasks.length := by
  unfold dependenciesForLane at h
  split at h
  · cases h
  · rw [List.mem_filter, List.mem_range] at h
    exact h.1

theorem CascadeReady.effect (hs : s.CascadeReady) {a : Action}
    (h : Effect s a s') : s'.CascadeReady := by
  have hcoh := hs.coherent.effect h
  rcases effect_shape hs.coherent h with ⟨hext, -⟩ | ⟨m, v, p, hmoves⟩
  · refine ⟨hcoh, ?_, ?_, ?_⟩
    · rcases hext.tasks with hsame | ⟨call, heq, -⟩
      · exact hs.waitsBack.congr hsame
      · intro i t ht d hd
        rw [heq, List.getElem?_append] at ht
        split at ht
        · exact hs.waitsBack i t ht d hd
        · next hi =>
          rw [List.getElem?_singleton] at ht
          split at ht
          · cases ht
            have := dependenciesForLane_lt hd
            omega
          · cases ht
    · intro i t ht hnd
      rw [hext.startedCalls]
      rcases hext.tasks with hsame | ⟨call, heq, hnew⟩
      · obtain ⟨u, hu, huneq⟩ := hsame.get ht
        obtain ⟨hcall, -, -, hphase⟩ :=
          ScheduledTask.eq_of_uncancelled huneq
        rw [hcall, hphase]
        exact hs.started i u hu (by rw [← hphase]; exact hnd)
      · rw [heq, List.getElem?_append] at ht
        split at ht
        · exact hs.started i t ht hnd
        · rw [List.getElem?_singleton] at ht
          split at ht
          · cases ht
            -- the newcomer's id is nobody's
            constructor
            · intro hmem
              obtain ⟨c, hc, hid⟩ := hs.known _ hmem
              exact absurd hid (hnew c hc).2
            · intro hp
              cases hp
          · cases ht
    · intro id hid
      rw [hext.startedCalls] at hid
      obtain ⟨c, hc, heq⟩ := hs.known id hid
      exact ⟨c, hext.resolvedCalls c hc, heq⟩
  · have hm := hmoves.move
    have hv := hmoves.task
    refine ⟨hcoh, ?_, ?_, ?_⟩
    · refine WaitsBack.congr hm.tasks ?_
      intro i t ht d hd
      rw [List.getElem?_modify] at ht
      obtain ⟨u, hu, rfl⟩ := Option.map_eq_some_iff.1 ht
      refine hs.waitsBack i u hu d ?_
      split at hd
      · exact hd
      · exact hd
    · intro i t ht hnd
      rcases hm.task_cases hv ht with ⟨rfl, heq⟩ | ⟨him, u, hu, heq⟩
      · obtain ⟨hcall, -, -, hphase⟩ := ScheduledTask.eq_of_uncancelled heq
        rw [hcall, hphase]
        rw [hphase] at hnd
        rw [hmoves.startedCall hnd]
        have hold := hs.started i v hv hmoves.unfinished
        constructor
        · intro h
          rcases h with h | h
          · exact h
          · -- a running task does not move but to its end
            rcases hmoves.starts with ⟨-, hp⟩ | ⟨hlic, -⟩
            · rcases hp with hp | ⟨hc, -⟩
              · exact absurd hp hnd
              · rw [hc] at hold
                simp [h] at hold
            · rw [hold] at h
              rcases hlic.phase with hp | hp
              · rw [hp] at h
                cases h
              · rw [hp] at h
                cases h
        · intro h
          exact Or.inl h
      · obtain ⟨hcall, -, -, hphase⟩ := ScheduledTask.eq_of_uncancelled heq
        have hid := (hs.coherent.task_ne him hu hv).2
        rw [hcall, hphase, hmoves.startedCalls _ hid]
        exact hs.started i u hu (by rw [← hphase]; exact hnd)
    · intro id hid
      rw [hm.resolvedCalls]
      by_cases hne : id = v.call.toolUseId
      · exact ⟨v.call, (hs.coherent.mem_of_task hv).1, hne.symm⟩
      · exact hs.known id ((hmoves.startedCalls id hne).1 hid)

theorem cascadeReady_of_reachable (h : orchestrator.Reachable {} s) :
    s.CascadeReady :=
  System.reachable_invariant
    (fun _ _ _ hs hstep => hs.effect (effect_of_step hs.coherent hstep))
    cascadeReady_init h

-- ==== the failing step

/-- The call at `i` ends with the outcome `o`: recorded from the state
`base`, which has the tasks of `s` and, but for the call itself, its
started calls. -/
structure EndsWith (s s' : OrchestratorState) (i : Nat) (t : ScheduledTask)
    (o : ToolOutcome) : Prop where
  outcome : o.resolvedCall = t.call
  waited : t.phase = .waiting → ∀ d ∈ t.waitFor, ∀ u,
    s.scheduledTasks[d]? = some u → u.phase = .done
  closed : ∃ (base : OrchestratorState) (n : Nat),
    s' = base.close i t.call o n ∧ base.scheduledTasks = s.scheduledTasks
      ∧ ∀ id, id ≠ t.call.toolUseId →
        (id ∈ base.startedCalls ↔ id ∈ s.startedCalls)

/-- A step that records an outcome for a scheduled call ends its task
with it. -/
theorem endsWith_of_outcome (hs : s.Coherent) {a : Action}
    (h : Effect s a s') {i : Nat} {t : ScheduledTask} {o : ToolOutcome}
    (ht : s.scheduledTasks[i]? = some t)
    (hnone : s.outcomes.get? t.call.replayIndex = none)
    (ho : s'.outcomes.get? t.call.replayIndex = some o) :
    EndsWith s s' i t o := by
  have hchanged : s'.outcomes.get? t.call.replayIndex
      ≠ s.outcomes.get? t.call.replayIndex := by
    rw [hnone, ho]
    simp
  -- a move that records the outcome is the move of this task
  have hpos : ∀ {i' : Nat} {t' : ScheduledTask} {p : TaskPhase},
      s.scheduledTasks[i']? = some t' → TaskMove s s' i' t' p →
      i' = i ∧ t' = t := by
    intro i' t' p ht' hm
    by_cases hi : i = i'
    · subst hi
      rw [ht] at ht'
      cases ht'
      exact ⟨rfl, rfl⟩
    · exact absurd (hm.outcome_of_ne _ (hs.task_ne hi ht ht').1) hchanged
  have hout : ∀ {base : OrchestratorState} {o' : ToolOutcome} {n : Nat},
      s' = base.close i t.call o' n → o'.replayIndex = t.call.replayIndex →
      o' = o := by
    intro base o' n heq hidx
    rw [heq, (close_eq (s := base) i t.call o' n).1, hidx,
      Dict.get?_insert_self] at ho
    exact Option.some.inj ho
  cases h with
  | observed _ _ _ _ _ => exact absurd rfl hchanged
  | unresolved _ => exact absurd rfl hchanged
  | laneless _ _ _ => exact absurd rfl hchanged
  | answered r ck e he hex =>
    exfalso
    obtain ⟨-, -, hbefore⟩ := hs.pending e he
    obtain ⟨-, hidx⟩ := syntheticOutcome_resolvedCall
      (r.resolvedCall e none)
      (s.resolve (r.resolvedCall e none)).completionIndex
    refine hchanged (Dict.get?_insert_of_ne _ _ ?_)
    rw [hidx]
    exact Nat.ne_of_lt (hbefore _ (hs.mem_of_task ht).1)
  | scheduled _ _ _ _ _ _ => exact absurd rfl hchanged
  | dropped _ _ _ _ _ _ => exact absurd rfl hchanged
  | parked _ _ _ _ _ _ _ => exact absurd rfl hchanged
  | started _ _ _ _ _ => exact absurd rfl hchanged
  | refused _ i' t' o' n ht' _ hlic _ hcall hidx =>
    obtain ⟨rfl, rfl⟩ :=
      hpos ht' (taskMove_close i' t' o' n hcall hidx).after_started
    have hoo := hout rfl hidx
    subst hoo
    refine ⟨hcall, fun _ d hd u hu => hlic.allDone hd hu,
      s.markStarted t'.call, n, rfl, rfl, ?_⟩
    intro id hid
    exact mem_startedCalls_markStarted.trans (by simp [hid])
  | cancelled i' t' ck o' n ht' hp _ hdone hcall hidx =>
    obtain ⟨rfl, rfl⟩ := hpos ht' (taskMove_close i' t' o' n hcall hidx)
    have hoo := hout rfl hidx
    subst hoo
    exact ⟨hcall, fun _ d hd u hu =>
        (Licenses.resume (i := i') ck hp hdone).allDone hd hu,
      s, n, rfl, rfl, fun _ _ => Iff.rfl⟩
  | finished i' t' run ck o' n ht' hp _ hcall hidx =>
    obtain ⟨rfl, rfl⟩ := hpos ht' (taskMove_close i' t' o' n hcall hidx)
    have hoo := hout rfl hidx
    subst hoo
    refine ⟨hcall, fun hw => ?_, s, n, rfl, rfl, fun _ _ => Iff.rfl⟩
    rw [hp] at hw
    cases hw
  | _ => exact absurd rfl hchanged

theorem cancels_setPhase (i : Nat) (p : TaskPhase) (j : Nat) :
    cancels (s.setPhase i p).scheduledTasks j = cancels s.scheduledTasks j := by
  unfold cancels setPhase
  rw [List.getElem?_modify]
  cases s.scheduledTasks[j]? with
  | none => simp
  | some t =>
    by_cases hij : i = j
    · simp [hij]
    · simp [hij]

theorem cancels_maybeCascadeFailure_le (o : ToolOutcome) (j : Nat) :
    cancels s.scheduledTasks j
      ≤ cancels (s.maybeCascadeFailure o).scheduledTasks j := by
  unfold maybeCascadeFailure
  split
  · exact Nat.le_refl _
  · dsimp only
    split_ifs
    · exact Nat.le_refl _
    · exact Nat.le_refl _
    · exact cancels_cancelWhere_le _ j
    · exact cancels_cancelWhere_le _ j

/-- No step takes a cancellation request back. -/
theorem cancels_effect_le {a : Action} (h : Effect s a s') (j : Nat) :
    cancels s.scheduledTasks j ≤ cancels s'.scheduledTasks j := by
  have hclose : ∀ (u : OrchestratorState) (i : Nat)
      (call : ResolvedToolCall) (o : ToolOutcome) (n : Nat),
      u.scheduledTasks = s.scheduledTasks →
      cancels s.scheduledTasks j
        ≤ cancels (u.close i call o n).scheduledTasks j := by
    intro u i call o n hu
    unfold close
    dsimp only
    rw [cancels_setPhase, ← hu]
    exact cancels_maybeCascadeFailure_le (s := { record
      { u with completionIndex := n } o with
        startedCalls := (record { u with completionIndex := n } o).startedCalls
          |>.filter (· ≠ call.toolUseId) }) o j
  have hphase : ∀ (u : OrchestratorState) (i : Nat) (p : TaskPhase),
      u.scheduledTasks = s.scheduledTasks →
      cancels s.scheduledTasks j
        ≤ cancels (u.setPhase i p).scheduledTasks j := by
    intro u i p hu
    rw [cancels_setPhase, hu]
  cases h with
  | scheduled r ck e lane he hex =>
    show cancels s.scheduledTasks j
      ≤ cancels (s.scheduledTasks ++ [s.newTask _]) j
    unfold cancels
    by_cases hj : j < s.scheduledTasks.length
    · rw [List.getElem?_append_left hj]
    · rw [List.getElem?_eq_none (Nat.le_of_not_lt hj)]
      exact Nat.zero_le _
  | dropped => exact hphase s _ _ rfl
  | parked => exact hphase s _ _ rfl
  | started _ _ t => exact hphase (s.markStarted t.call) _ _ rfl
  | refused _ i t o n => exact hclose (s.markStarted t.call) i t.call o n rfl
  | cancelled i t ck o n => exact hclose s i t.call o n rfl
  | finished i t run ck o n => exact hclose s i t.call o n rfl
  | escaped i t run ck n =>
    exact hphase { s with completionIndex := n } i .done rfl
  | interrupted => exact cancels_cancelWhere_le _ j
  | _ => exact Nat.le_refl _

/-- A task stays in its place; once done it stays done, and a request to
cancel it is not taken back. -/
theorem task_goes_on (hs : s.Coherent) {a : Action} (h : Effect s a s')
    {i : Nat} {t : ScheduledTask} (ht : s.scheduledTasks[i]? = some t) :
    ∃ u, s'.scheduledTasks[i]? = some u ∧ u.call = t.call
      ∧ (t.phase = .done → u.phase = .done)
      ∧ t.numCancelsRequested ≤ u.numCancelsRequested := by
  have hle := cancels_effect_le h i
  have hread : ∀ u, s'.scheduledTasks[i]? = some u →
      t.numCancelsRequested ≤ u.numCancelsRequested := by
    intro u hu
    unfold cancels at hle
    rw [ht, hu] at hle
    exact hle
  rcases effect_shape hs h with ⟨hext, -⟩ | ⟨m, v, p, hmoves⟩
  · obtain ⟨u, hu, heq⟩ := hext.get ht
    obtain ⟨hcall, -, -, hphase⟩ := ScheduledTask.eq_of_uncancelled heq
    exact ⟨u, hu, hcall, fun hd => by rw [hphase, hd], hread u hu⟩
  · by_cases him : i = m
    · subst him
      have hv := hmoves.task
      rw [ht] at hv
      cases hv
      obtain ⟨u, hu, heq⟩ := hmoves.move.get_self ht
      obtain ⟨hcall, -⟩ := ScheduledTask.eq_of_uncancelled heq
      exact ⟨u, hu, hcall, fun hd => absurd hd hmoves.unfinished, hread u hu⟩
    · obtain ⟨u, hu, heq⟩ := hmoves.move.get_of_ne him ht
      obtain ⟨hcall, -, -, hphase⟩ := ScheduledTask.eq_of_uncancelled heq
      exact ⟨u, hu, hcall, fun hd => by rw [hphase, hd], hread u hu⟩

theorem startOrder_grows (hs : s.Coherent) {a : Action} (h : Effect s a s')
    {k : Nat} (hk : k ∈ s.startOrder) : k ∈ s'.startOrder := by
  rcases effect_shape hs h with ⟨hext, -⟩ | ⟨i, t, p, hmoves⟩
  · rw [hext.startOrder]
    exact hk
  · rcases hmoves.starts with ⟨heq, -⟩ | ⟨-, -, heq⟩
    · rw [heq]
      exact hk
    · rw [heq]
      exact List.mem_append_left _ hk

/-- Whether a cascade under `policy` cancels a task itself. -/
def Targets (s : OrchestratorState) (policy : ToolFailurePolicy) (i : Nat)
    (k : Nat) (u : ScheduledTask) : Prop :=
  s.scheduledTasks[k]? = some u ∧ k ≠ i ∧ u.phase ≠ .done
    ∧ if u.call.toolUseId ∈ s.startedCalls
      then policy.cancelRunningSiblings = true
      else policy.blockQueuedSiblings = true

theorem cascadeTarget_iff {policy : ToolFailurePolicy} {id : String}
    {u : ScheduledTask} :
    s.cascadeTarget policy id u = true
      ↔ u.call.toolUseId ≠ id ∧ u.phase ≠ .done
        ∧ if u.call.toolUseId ∈ s.startedCalls
          then policy.cancelRunningSiblings = true
          else policy.blockQueuedSiblings = true := by
  unfold cascadeTarget
  by_cases hstarted : u.call.toolUseId ∈ s.startedCalls
  · simp [hstarted, and_assoc]
  · simp [hstarted, and_assoc]

/-- What a fatal failure of the call at `i` cancels: exactly what the
targets of its cascade reach. -/
theorem cancels_cascade (hs : s.CascadeReady) {i : Nat} {t : ScheduledTask}
    {o : ToolOutcome} {semantics : ResolvedToolExecutionSemantics}
    (ht : s.scheduledTasks[i]? = some t) (hend : EndsWith s s' i t o)
    (hsem : t.call.resolvedSemantics = some semantics)
    (hfatal : semantics.failurePolicy.failureMode = .fatal)
    (hfail : o.status ≠ .success) (j : Nat) :
    cancels s.scheduledTasks j ≤ cancels s'.scheduledTasks j
      ∧ (cancels s.scheduledTasks j < cancels s'.scheduledTasks j
        ↔ ∃ (k : Nat) (u : ScheduledTask),
          s.Targets semantics.failurePolicy i k u
            ∧ CancelReaches s.scheduledTasks k j) := by
  obtain ⟨base, n, heq, htasks, hstarted⟩ := hend.closed
  have hleft : s'.scheduledTasks = (setPhase
      { base with
        scheduledTasks := cancelWhere base.scheduledTasks
          (cascadeTarget { record { base with completionIndex := n } o with
            startedCalls := base.startedCalls.filter
              (· ≠ t.call.toolUseId) }
            semantics.failurePolicy t.call.toolUseId) }
      i .done).scheduledTasks := by
    rw [heq]
    unfold close maybeCascadeFailure
    rw [hend.outcome, hsem]
    simp only [hfatal, ne_eq, not_true_eq_false, if_false, hfail]
    rfl
  rw [hleft, cancels_setPhase, ← htasks]
  have hback : WaitsBack base.scheduledTasks := by
    rw [htasks]
    exact hs.waitsBack
  obtain ⟨hle, hlt⟩ := cancels_cancelWhere hback j (p := cascadeTarget
    { record { base with completionIndex := n } o with
      startedCalls := base.startedCalls.filter (· ≠ t.call.toolUseId) }
    semantics.failurePolicy t.call.toolUseId)
  -- the failing call's own id left the started ones, and only that
  have hmem : ∀ (k : Nat) (u : ScheduledTask),
      s.scheduledTasks[k]? = some u → u.call.toolUseId ≠ t.call.toolUseId →
      (u.call.toolUseId ∈ base.startedCalls.filter (· ≠ t.call.toolUseId)
        ↔ u.call.toolUseId ∈ s.startedCalls) := by
    intro k u _ hid
    rw [List.mem_filter, ← hstarted _ hid]
    simp [hid]
  refine ⟨hle, hlt.trans ?_⟩
  simp only [cascadeTarget_iff, htasks]
  constructor
  · intro h
    obtain ⟨k, u, hu, ⟨hid, hnd, hpol⟩, hr⟩ := h
    have hki : k ≠ i := by
      intro hki
      subst hki
      rw [ht] at hu
      cases hu
      exact hid rfl
    refine ⟨k, u, ⟨hu, hki, hnd, ?_⟩, hr⟩
    rw [← if_congr (hmem k u hu hid) rfl rfl]
    exact hpol
  · intro h
    obtain ⟨k, u, ⟨hu, hki, hnd, hpol⟩, hr⟩ := h
    have hid := (hs.coherent.task_ne hki hu ht).2
    refine ⟨k, u, hu, ⟨hid, hnd, ?_⟩, hr⟩
    rw [← if_congr (hmem k u hu hid) rfl rfl] at hpol
    exact hpol

-- ==== what is respected

/-- No queued sibling stands between a cascade and a started one: the
policy does not block queued siblings, or every running task that a
waiting sibling waits for is the failing one. -/
def SparesStarted (s : OrchestratorState) (policy : ToolFailurePolicy)
    (i : Nat) : Prop :=
  policy.blockQueuedSiblings = false
    ∨ ∀ (k d : Nat) (u v : ScheduledTask), k ≠ i →
      s.scheduledTasks[k]? = some u → u.phase = .waiting →
      d ∈ u.waitFor → s.scheduledTasks[d]? = some v →
      v.phase = .running → d = i

/-- A fatal failure under a policy that spares running siblings: it
cancels no started sibling exactly when `SparesStarted`; and a policy
that does not block queued siblings cancels none that has not started. -/
theorem cascade_respects_policy {a : Action} {i : Nat} {t : ScheduledTask}
    {o : ToolOutcome} {semantics : ResolvedToolExecutionSemantics}
    (hreach : orchestrator.Reachable {} s)
    (hstep : orchestrator.step s a = some s')
    (ht : s.scheduledTasks[i]? = some t)
    (hnone : s.outcomes.get? t.call.replayIndex = none)
    (ho : s'.outcomes.get? t.call.replayIndex = some o)
    (hsem : t.call.resolvedSemantics = some semantics)
    (hfatal : semantics.failurePolicy.failureMode = .fatal)
    (hfail : o.status ≠ .success) :
    (semantics.failurePolicy.cancelRunningSiblings = false →
        ((∀ (j : Nat) (u : ScheduledTask), j ≠ i →
            s.scheduledTasks[j]? = some u →
            u.call.toolUseId ∈ s.startedCalls →
            cancels s'.scheduledTasks j = cancels s.scheduledTasks j)
          ↔ s.SparesStarted semantics.failurePolicy i))
      ∧ (semantics.failurePolicy.blockQueuedSiblings = false →
        ∀ (j : Nat) (u : ScheduledTask), j ≠ i →
          s.scheduledTasks[j]? = some u →
          u.call.toolUseId ∉ s.startedCalls →
          cancels s'.scheduledTasks j = cancels s.scheduledTasks j) := by
  have hs := cascadeReady_of_reachable hreach
  have hend := endsWith_of_outcome hs.coherent
    (effect_of_step hs.coherent hstep) ht hnone ho
  have hcascade := cancels_cascade hs ht hend hsem hfatal hfail
  have hrunning : ∀ {j : Nat} {u : ScheduledTask},
      s.scheduledTasks[j]? = some u → u.call.toolUseId ∈ s.startedCalls →
      u.phase ≠ .done → u.phase = .running := by
    intro j u hu hid hnd
    exact (hs.started j u hu hnd).1 hid
  constructor
  · intro hspare
    constructor
    · intro hall
      by_cases hb : semantics.failurePolicy.blockQueuedSiblings = false
      · exact Or.inl hb
      · refine Or.inr ?_
        intro k d u v hki hu hw hd hv hrun
        by_contra hdi
        have hid := (hs.started d v hv (by rw [hrun]; simp)).2 hrun
        have hku : u.call.toolUseId ∉ s.startedCalls := by
          rw [hs.started k u hu (by rw [hw]; simp), hw]
          simp
        -- the waiting sibling is a target, and it reaches the running one
        have htarget : s.Targets semantics.failurePolicy i k u := by
          refine ⟨hu, hki, by rw [hw]; simp, ?_⟩
          rw [if_neg hku]
          simpa using hb
        have hr : CancelReaches s.scheduledTasks k d :=
          .wait hu hw hd (.self hv (by rw [hrun]; simp))
        have hlt := (hcascade d).2.2 ⟨k, u, htarget, hr⟩
        have heq := hall d v hdi hv hid
        omega
    · intro hok j u hji hu hid
      by_contra hne
      obtain ⟨hle, hlt⟩ := hcascade j
      obtain ⟨k, v, ⟨hv, hki, hnd, hpol⟩, hr⟩ := hlt.1 (by omega)
      have hkv : v.call.toolUseId ∉ s.startedCalls := by
        intro h
        rw [if_pos h, hspare] at hpol
        cases hpol
      rw [if_neg hkv] at hpol
      obtain ⟨w, hw, hwnd⟩ := hr.unfinished
      rw [hu] at hw
      cases hw
      have hrun := hrunning hu hid hwnd
      rcases hr.last with rfl | ⟨m, x, hx, hxw, hjx⟩
      · rw [hu] at hv
        cases hv
        exact hkv hid
      · by_cases hmi : m = i
        · -- the failing call waits for nothing unfinished
          subst hmi
          rw [ht] at hx
          cases hx
          exact hwnd (hend.waited hxw j hjx u hu)
        · rcases hok with hb | hok
          · rw [hb] at hpol
            cases hpol
          · exact hji (hok m j x u hmi hx hxw hjx hu hrun)
  · intro hb j u hji hu hid
    by_contra hne
    obtain ⟨hle, hlt⟩ := hcascade j
    obtain ⟨k, v, ⟨hv, hki, hnd, hpol⟩, hr⟩ := hlt.1 (by omega)
    have hkv : v.call.toolUseId ∈ s.startedCalls := by
      by_contra h
      rw [if_neg h, hb] at hpol
      cases hpol
    have hrun := hrunning hv hkv hnd
    -- a running task waits for nothing, so it reaches itself only
    cases hr with
    | self _ _ =>
      rw [hu] at hv
      cases hv
      exact hid hkv
    | wait hx hw _ _ =>
      rw [hv] at hx
      cases hx
      rw [hrun] at hw
      cases hw

end OrchestratorState

section FixedRuns

/-! Three tools on files, under a fatal policy that blocks queued siblings
and spares running ones. The first writes `a`, the second writes `b`, the
third waits for the second. -/

def writePath (path : String) : Resolution :=
  { resolutionStatus := .executable, canonicalToolName := some "write"
    toolDefinition := some { name := "write" }
    resolvedSemantics := some
      { readOnly := false, concurrencySafe := true
        failurePolicy := { failureMode := .fatal, blockQueuedSiblings := true }
        classifierInput := some { targetPaths := [path] } } }

def queuedBehindRunning : List Action :=
  [.observeBegin "call-1" "write" "message-1",
    .observeResolved (writePath "a") some,
    .observeBegin "call-2" "write" "message-1",
    .observeResolved (writePath "b") some,
    .observeBegin "call-3" "write" "message-1",
    .observeResolved (writePath "b") some,
    .firstStep 0 some, .firstStep 1 some, .firstStep 2 some]

def firstFails : Action :=
  .finish 0 { execute := .raises "disk full" } some

/-- The second call has started, and the first one's failure cancels it
through the third. -/
theorem cascade_cancels_running_sibling :
    (orchestrator.run {} queuedBehindRunning).bind (fun s =>
      (orchestrator.step s firstFails).map fun s' =>
        (decide ("call-2" ∈ s.startedCalls), cancels s.scheduledTasks 1,
          cancels s'.scheduledTasks 1, (s'.outcomes.get? 0).map (·.status)))
      = some (true, 0, 1, some .error) := by
  decide

def firstTask : ScheduledTask :=
  { call := (writePath "a").resolvedCall
      { toolUseId := "call-1", sequenceIndex := 0, rawToolName := "write"
        assistantMessageId := "message-1" }
      (some { laneKind := .conflict, laneKey := some "a"
              conflictDomains := ["a"], derivationMode := .precise })
    lane := some { laneKind := .conflict, laneKey := some "a"
                   conflictDomains := ["a"], derivationMode := .precise }
    waitFor := []
    phase := .running }

/-- The failure of the first call, as the theorem above describes it. -/
theorem cascade_respects_policy_first :
    ∃ s s', orchestrator.run {} queuedBehindRunning = some s
      ∧ orchestrator.step s firstFails = some s'
      ∧ ((∀ (j : Nat) (u : ScheduledTask), j ≠ 0 →
          s.scheduledTasks[j]? = some u →
          u.call.toolUseId ∈ s.startedCalls →
          cancels s'.scheduledTasks j = cancels s.scheduledTasks j)
        ↔ s.SparesStarted
            { failureMode := .fatal, blockQueuedSiblings := true } 0) := by
  have hview : (orchestrator.run {} queuedBehindRunning).bind (fun s =>
      (orchestrator.step s firstFails).map fun s' =>
        (s.scheduledTasks[0]?, (s.outcomes.get? 0).isNone,
          (s'.outcomes.get? 0).map (·.status)))
      = some (some firstTask, true, some .error) := by
    decide
  obtain ⟨s, hrun, hrest⟩ := Option.bind_eq_some_iff.1 hview
  obtain ⟨s', hstep, hvals⟩ := Option.map_eq_some_iff.1 hrest
  obtain ⟨ht, hrest'⟩ := Prod.mk.inj hvals
  obtain ⟨hnone, hstatus⟩ := Prod.mk.inj hrest'
  obtain ⟨o, ho, hso⟩ := Option.map_eq_some_iff.1 hstatus
  refine ⟨s, s', hrun, hstep, ?_⟩
  exact (OrchestratorState.cascade_respects_policy ⟨_, hrun⟩ hstep ht
    (Option.isNone_iff_eq_none.1 hnone) ho rfl rfl
    (by rw [hso]; simp)).1 rfl

end FixedRuns

end WeaveRuntime.Tools
