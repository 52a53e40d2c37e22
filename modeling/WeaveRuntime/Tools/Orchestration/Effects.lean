/-
What one action of the orchestrator can do, said once.

`Effect s a s'` lists the ways an action changes the state, one
constructor for each exit of the source, with the guards of that exit
and the resulting state in closed form. `step_effect` shows that every
step is one of them; the invariants, the cascades and the lanes are all
read off `Effect`, and no proof after this file unfolds a step.

The closed forms compose three moves on one call (`markStarted`,
`record`, `close`) with the phase change of its task. Cancellation
changes counts only, so the rest of a task is compared through
`ScheduledTask.uncancelled`.
-/
import WeaveRuntime.Tools.Orchestration

namespace WeaveRuntime.Tools

open Lib

-- ==== what a cancellation changes

/-- A task but for its cancellation count. -/
def ScheduledTask.uncancelled (task : ScheduledTask) : ScheduledTask :=
  { task with numCancelsRequested := 0 }

/-- Two task lists that differ in cancellation counts only. -/
def SameTasks (tasks tasks' : List ScheduledTask) : Prop :=
  tasks'.map ScheduledTask.uncancelled = tasks.map ScheduledTask.uncancelled

theorem SameTasks.refl (tasks : List ScheduledTask) :
    SameTasks tasks tasks := rfl

theorem SameTasks.trans {a b c : List ScheduledTask} (hab : SameTasks a b)
    (hbc : SameTasks b c) : SameTasks a c :=
  Eq.trans hbc hab

theorem SameTasks.length {a b : List ScheduledTask} (h : SameTasks a b) :
    b.length = a.length := by
  have := congrArg List.length h
  simpa using this

theorem SameTasks.get {a b : List ScheduledTask} (h : SameTasks a b)
    {i : Nat} {t : ScheduledTask} (ht : b[i]? = some t) :
    ∃ u, a[i]? = some u ∧ t.uncancelled = u.uncancelled := by
  have hi := congrArg (fun l => l[i]?) h
  simp only [List.getElem?_map, ht, Option.map_some] at hi
  obtain ⟨u, hu, heq⟩ := Option.map_eq_some_iff.1 hi.symm
  exact ⟨u, hu, heq.symm⟩

theorem SameTasks.symm {a b : List ScheduledTask} (h : SameTasks a b) :
    SameTasks b a := Eq.symm h

/-- What two tasks that are equal up to their counts share. -/
theorem ScheduledTask.eq_of_uncancelled {t u : ScheduledTask}
    (h : t.uncancelled = u.uncancelled) :
    t.call = u.call ∧ t.lane = u.lane ∧ t.waitFor = u.waitFor
      ∧ t.phase = u.phase := by
  cases t
  cases u
  simp only [uncancelled, ScheduledTask.mk.injEq, and_true] at h
  exact h

theorem sameTasks_modify_cancels (tasks : List ScheduledTask) (i : Nat) :
    SameTasks tasks (tasks.modify i fun t =>
      { t with numCancelsRequested := t.numCancelsRequested + 1 }) := by
  show List.map _ _ = _
  refine List.ext_getElem? fun j => ?_
  simp only [List.getElem?_map, List.getElem?_modify]
  cases tasks[j]? with
  | none => rfl
  | some t =>
    by_cases hij : i = j
    · simp [hij, ScheduledTask.uncancelled]
    · simp [hij]

theorem sameTasks_foldl {α : Type} {f : List ScheduledTask → α →
    List ScheduledTask} (hf : ∀ ts x, SameTasks ts (f ts x)) (xs : List α)
    (tasks : List ScheduledTask) : SameTasks tasks (xs.foldl f tasks) := by
  induction xs generalizing tasks with
  | nil => exact SameTasks.refl tasks
  | cons x xs ih => exact (hf tasks x).trans (ih (f tasks x))

theorem sameTasks_cancelTask (fuel : Nat) (tasks : List ScheduledTask)
    (i : Nat) : SameTasks tasks (cancelTask fuel tasks i) := by
  induction fuel generalizing tasks i with
  | zero => exact SameTasks.refl tasks
  | succ fuel ih =>
    unfold cancelTask
    split
    · exact SameTasks.refl tasks
    · split
      · exact SameTasks.refl tasks
      · have hmod := sameTasks_modify_cancels tasks i
        split
        · exact hmod.trans (sameTasks_foldl ih _ _)
        · exact hmod

theorem sameTasks_cancelWhere (tasks : List ScheduledTask)
    (p : ScheduledTask → Bool) :
    SameTasks tasks (OrchestratorState.cancelWhere tasks p) := by
  refine sameTasks_foldl ?_ _ tasks
  intro ts i
  split
  · exact sameTasks_cancelTask _ ts i
  · exact SameTasks.refl ts

namespace OrchestratorState

-- =========== the moves

/-- The replay indices of the calls that have started, in the order they
did. -/
def startOrder (s : OrchestratorState) : List Nat :=
  s.emitted.filterMap fun
    | .executionStarted _ i _ => some i
    | _ => none

def markStarted (s : OrchestratorState) (call : ResolvedToolCall) :
    OrchestratorState :=
  afterEvent { s with startedCalls := s.startedCalls.insert call.toolUseId }
    (.executionStarted call.toolUseId call.replayIndex (laneKindOf call))

def record (s : OrchestratorState) (o : ToolOutcome) : OrchestratorState :=
  afterEvent { s with outcomes := s.outcomes.insert o.replayIndex o }
    (.outcomeRecorded o.resolvedCall.toolUseId o.replayIndex
      o.completionIndex o.status)

/-- A scheduled call's task ends with an outcome. -/
def close (s : OrchestratorState) (i : Nat) (call : ResolvedToolCall)
    (o : ToolOutcome) (completionIndex : Nat) : OrchestratorState :=
  let recorded := record { s with completionIndex := completionIndex } o
  (maybeCascadeFailure
    { recorded with
      startedCalls := recorded.startedCalls.filter (· ≠ call.toolUseId) }
    o).setPhase i .done

def observe (s : OrchestratorState)
    (toolUseId rawToolName assistantMessageId : String) : OrchestratorState :=
  (afterEvent
    { s with
      observedCount := s.observedCount + 1
      pending := some
        { toolUseId := toolUseId, sequenceIndex := s.observedCount
          rawToolName := rawToolName
          assistantMessageId := assistantMessageId } }
    (.envelopeObserved toolUseId s.observedCount assistantMessageId
      rawToolName)).afterEvent
    (.resolutionStarted toolUseId s.observedCount)

def resolve (s : OrchestratorState) (call : ResolvedToolCall) :
    OrchestratorState :=
  afterEvent
    { s with pending := none, resolvedCalls := s.resolvedCalls ++ [call] }
    (.resolutionCompleted call.toolUseId call.replayIndex
      call.resolutionStatus call.canonicalToolName)

/-- A call that does not execute gets its outcome. -/
def answer (s : OrchestratorState) (call : ResolvedToolCall) :
    OrchestratorState :=
  record
    { s.resolve call with
      completionIndex := (s.resolve call).completionIndex + 1 }
    (syntheticOutcome call (s.resolve call).completionIndex)

def newTask (s : OrchestratorState) (call : ResolvedToolCall) :
    ScheduledTask :=
  { call := call, lane := call.schedulerLane
    waitFor := dependenciesForLane s.scheduledTasks call.schedulerLane }

def schedule (s : OrchestratorState) (call : ResolvedToolCall) :
    OrchestratorState :=
  let queued := (s.resolve call).afterEvent
    (.executionQueued call.toolUseId call.replayIndex (laneKindOf call)
      (call.schedulerLane.bind fun lane => lane.laneKey))
  { queued with
    scheduledTasks := queued.scheduledTasks ++ [s.newTask call] }

-- ============= effects

/-- The action lets the task at `i` go on to start its call. -/
inductive Licenses (s : OrchestratorState) (i : Nat) (t : ScheduledTask) :
    Action → Prop
  | firstStep (ck : String → Option String) : t.phase = .created →
      t.waitFor = [] → Licenses s i t (.firstStep i ck)
  | resume (ck : String → Option String) : t.phase = .waiting →
      s.allDone t.waitFor = true → Licenses s i t (.resume i ck)

/-- The action starts the tool body of the call at `i`: nothing cancelled
it, and the boundary has no answer of its own. -/
structure Begins (s : OrchestratorState) (i : Nat) (t : ScheduledTask)
    (a : Action) : Prop where
  licensed : Licenses s i t a
  uncancelled : t.numCancelsRequested = 0
  preflight : preflight t.call s.interruptReason = none

/-- What an action does to a state, by the exit it takes. -/
inductive Effect (s : OrchestratorState) : Action → OrchestratorState → Prop
  | observed (id name message : String) : s.pending = none →
      s.stage id = none →
      Effect s (.observeBegin id name message) (s.observe id name message)
  | unresolved : s.pending.isSome →
      Effect s .observeFailed { s with pending := none }
  | laneless (r : Resolution) (ck : String → Option String) :
      s.pending.isSome →
      Effect s (.observeResolved r ck) { s with pending := none }
  | answered (r : Resolution) (ck : String → Option String)
      (e : ToolCallEnvelope) : s.pending = some e →
      r.resolutionStatus ≠ .executable →
      Effect s (.observeResolved r ck) (s.answer (r.resolvedCall e none))
  | scheduled (r : Resolution) (ck : String → Option String)
      (e : ToolCallEnvelope) (lane : ToolSchedulerLane) :
      s.pending = some e → r.resolutionStatus = .executable →
      Effect s (.observeResolved r ck)
        (s.schedule (r.resolvedCall e (some lane)))
  | dropped (i : Nat) (t : ScheduledTask) (ck : String → Option String) :
      s.scheduledTasks[i]? = some t → t.phase = .created →
      t.numCancelsRequested ≠ 0 →
      Effect s (.firstStep i ck) (s.setPhase i .done)
  | parked (i : Nat) (t : ScheduledTask) (ck : String → Option String) :
      s.scheduledTasks[i]? = some t → t.phase = .created →
      t.numCancelsRequested = 0 → t.waitFor ≠ [] →
      Effect s (.firstStep i ck) (s.setPhase i .waiting)
  | started (a : Action) (i : Nat) (t : ScheduledTask) :
      s.scheduledTasks[i]? = some t → Begins s i t a →
      Effect s a ((s.markStarted t.call).setPhase i .running)
  | refused (a : Action) (i : Nat) (t : ScheduledTask) (o : ToolOutcome)
      (n : Nat) :
      s.scheduledTasks[i]? = some t → t.numCancelsRequested = 0 →
      Licenses s i t a → preflight t.call s.interruptReason ≠ none →
      o.resolvedCall = t.call → o.replayIndex = t.call.replayIndex →
      Effect s a ((s.markStarted t.call).close i t.call o n)
  | cancelled (i : Nat) (t : ScheduledTask) (ck : String → Option String)
      (o : ToolOutcome) (n : Nat) :
      s.scheduledTasks[i]? = some t → t.phase = .waiting →
      t.numCancelsRequested ≠ 0 → s.allDone t.waitFor = true →
      o.resolvedCall = t.call → o.replayIndex = t.call.replayIndex →
      Effect s (.resume i ck) (s.close i t.call o n)
  | finished (i : Nat) (t : ScheduledTask) (run : ToolRun)
      (ck : String → Option String) (o : ToolOutcome) (n : Nat) :
      s.scheduledTasks[i]? = some t → t.phase = .running →
      ¬ Escapes ck t.call run →
      o.resolvedCall = t.call → o.replayIndex = t.call.replayIndex →
      Effect s (.finish i run ck) (s.close i t.call o n)
  | escaped (i : Nat) (t : ScheduledTask) (run : ToolRun)
      (ck : String → Option String) (n : Nat) :
      s.scheduledTasks[i]? = some t → t.phase = .running →
      Escapes ck t.call run →
      Effect s (.finish i run ck)
        (setPhase { s with completionIndex := n } i .done)
  | progressed (i : Nat) (t : ScheduledTask) (progressId message : String) :
      s.scheduledTasks[i]? = some t →
      s.stage t.call.toolUseId = some .running →
      Effect s (.progress i progressId message)
        (s.afterEvent (.progressEmitted t.call.toolUseId t.call.replayIndex
          progressId message))
  | unheard (i : Nat) (progressId message : String) :
      Effect s (.progress i progressId message) s
  | interrupted (reason : String) :
      Effect s (.interrupt reason)
        { s with
          interruptReason := some reason
          scheduledTasks :=
            cancelWhere s.scheduledTasks fun task => task.phase ≠ .done }
  | requested (reason : String) :
      Effect s (.requestInterrupt reason)
        { s with interruptReason := some reason }

-- ==== reading the moves' fields

section Fields

variable (s : OrchestratorState)

variable (event : ToolLifecycleEvent)

theorem stage_afterEvent (id : String) :
    (s.afterEvent event).stage id
      = if id = event.toolUseId then some (targetStage event)
        else s.stage id :=
  Dict.get?_insert _ _ _ _

theorem stage_markStarted (call : ResolvedToolCall) (id : String) :
    (s.markStarted call).stage id
      = if id = call.toolUseId then some .running else s.stage id :=
  stage_afterEvent _ _ _

theorem stage_record (o : ToolOutcome) (id : String) :
    (s.record o).stage id
      = if id = o.resolvedCall.toolUseId then some .terminalPendingReplay
        else s.stage id :=
  stage_afterEvent _ _ _

theorem stage_observe (name message id id' : String) :
    (s.observe id name message).stage id'
      = if id' = id then some .resolving else s.stage id' := by
  refine (stage_afterEvent _ _ _).trans ?_
  by_cases hid : id' = id
  · rw [if_pos hid]
    exact if_pos hid
  · rw [if_neg hid]
    refine (if_neg hid).trans ?_
    exact (stage_afterEvent _ _ _).trans (if_neg hid)

theorem stage_resolve (call : ResolvedToolCall) (id : String) :
    (s.resolve call).stage id
      = if id = call.toolUseId then
          some (if call.resolutionStatus = .executable then .queued
            else .resolvedNonExecutable)
        else s.stage id :=
  stage_afterEvent _ _ _

theorem stage_answer (call : ResolvedToolCall) (id : String) :
    (s.answer call).stage id
      = if id = call.toolUseId then some .terminalPendingReplay
        else s.stage id := by
  obtain ⟨hcall, -⟩ :=
    syntheticOutcome_resolvedCall call (s.resolve call).completionIndex
  refine (stage_record _ _ id).trans ?_
  rw [hcall]
  by_cases hid : id = call.toolUseId
  · rw [if_pos hid, if_pos hid]
  · rw [if_neg hid, if_neg hid]
    exact (stage_resolve s call id).trans (if_neg hid)

theorem stage_schedule (call : ResolvedToolCall) (id : String) :
    (s.schedule call).stage id
      = if id = call.toolUseId then some .queued else s.stage id := by
  refine (stage_afterEvent (s.resolve call) _ id).trans ?_
  by_cases hid : id = call.toolUseId
  · rw [if_pos hid]
    exact if_pos hid
  · rw [if_neg hid]
    refine (if_neg hid).trans ?_
    exact (stage_resolve s call id).trans (if_neg hid)

@[simp] theorem afterEvent_outcomes :
    (s.afterEvent event).outcomes = s.outcomes := rfl

@[simp] theorem afterEvent_resolvedCalls :
    (s.afterEvent event).resolvedCalls = s.resolvedCalls := rfl

@[simp] theorem afterEvent_scheduledTasks :
    (s.afterEvent event).scheduledTasks = s.scheduledTasks := rfl

@[simp] theorem afterEvent_pending :
    (s.afterEvent event).pending = s.pending := rfl

@[simp] theorem afterEvent_observedCount :
    (s.afterEvent event).observedCount = s.observedCount := rfl

@[simp] theorem afterEvent_startedCalls :
    (s.afterEvent event).startedCalls = s.startedCalls := rfl

@[simp] theorem afterEvent_completionIndex :
    (s.afterEvent event).completionIndex = s.completionIndex := rfl

@[simp] theorem setPhase_stage (i : Nat) (p : TaskPhase) (id : String) :
    (s.setPhase i p).stage id = s.stage id := rfl

@[simp] theorem setPhase_outcomes (i : Nat) (p : TaskPhase) :
    (s.setPhase i p).outcomes = s.outcomes := rfl

@[simp] theorem setPhase_resolvedCalls (i : Nat) (p : TaskPhase) :
    (s.setPhase i p).resolvedCalls = s.resolvedCalls := rfl

@[simp] theorem setPhase_pending (i : Nat) (p : TaskPhase) :
    (s.setPhase i p).pending = s.pending := rfl

@[simp] theorem setPhase_observedCount (i : Nat) (p : TaskPhase) :
    (s.setPhase i p).observedCount = s.observedCount := rfl

@[simp] theorem setPhase_startOrder (i : Nat) (p : TaskPhase) :
    (s.setPhase i p).startOrder = s.startOrder := rfl

theorem maybeCascadeFailure_eq (o : ToolOutcome) :
    ∃ reason tasks, SameTasks s.scheduledTasks tasks
      ∧ s.maybeCascadeFailure o
        = { s with interruptReason := reason, scheduledTasks := tasks } := by
  unfold maybeCascadeFailure
  split
  · exact ⟨s.interruptReason, s.scheduledTasks, SameTasks.refl _, rfl⟩
  · dsimp only
    split
    · exact ⟨s.interruptReason, s.scheduledTasks, SameTasks.refl _, rfl⟩
    · split
      · exact ⟨s.interruptReason, s.scheduledTasks, SameTasks.refl _, rfl⟩
      · exact ⟨_, _, sameTasks_cancelWhere _ _, rfl⟩

end Fields

-- ==== moves of one task

theorem SameTasks_modify {a b : List ScheduledTask} (h : SameTasks a b)
    (i : Nat) (p : TaskPhase) :
    SameTasks (a.modify i fun t => { t with phase := p })
      (b.modify i fun t => { t with phase := p }) := by
  show List.map _ _ = List.map _ _
  refine List.ext_getElem? fun j => ?_
  have hj := congrArg (fun l => l[j]?) h
  simp only [List.getElem?_map, List.getElem?_modify] at hj ⊢
  by_cases hij : i = j
  · simp only [hij, if_true]
    cases ha : a[j]? with
    | none =>
      rw [ha] at hj
      cases hb : b[j]? with
      | none => rfl
      | some u =>
        rw [hb] at hj
        cases hj
    | some t =>
      rw [ha] at hj
      obtain ⟨u, hu, heq⟩ := Option.map_eq_some_iff.1 hj
      obtain ⟨hc, hl, hw, -⟩ := ScheduledTask.eq_of_uncancelled heq
      simp [hu, ScheduledTask.uncancelled, hc, hl, hw]
  · simpa [hij] using hj

/-- The task at `i` moves to `phase`: its call's stage and outcome may
change, nothing of another call does, and no call is observed. -/
structure TaskMove (s s' : OrchestratorState) (i : Nat) (t : ScheduledTask)
    (phase : TaskPhase) : Prop where
  resolvedCalls : s'.resolvedCalls = s.resolvedCalls
  pending : s'.pending = s.pending
  observedCount : s'.observedCount = s.observedCount
  stage_of_ne : ∀ id, id ≠ t.call.toolUseId → s'.stage id = s.stage id
  outcome_of_ne : ∀ k, k ≠ t.call.replayIndex →
    s'.outcomes.get? k = s.outcomes.get? k
  tasks : SameTasks
    (s.scheduledTasks.modify i fun u => { u with phase := phase })
    s'.scheduledTasks

variable {s : OrchestratorState}

theorem taskMove_setPhase (i : Nat) (t : ScheduledTask) (p : TaskPhase)
    (n : Nat) :
    TaskMove s (setPhase { s with completionIndex := n } i p) i t p :=
  ⟨rfl, rfl, rfl, fun _ _ => rfl, fun _ _ => rfl, SameTasks.refl _⟩

theorem taskMove_started (i : Nat) (t : ScheduledTask) :
    TaskMove s ((s.markStarted t.call).setPhase i .running) i t .running := by
  refine ⟨rfl, rfl, rfl, ?_, fun _ _ => rfl, SameTasks.refl _⟩
  intro id hid
  show (s.markStarted t.call).stage id = s.stage id
  rw [stage_markStarted, if_neg hid]

theorem close_eq (i : Nat) (call : ResolvedToolCall) (o : ToolOutcome)
    (n : Nat) :
    (s.close i call o n).outcomes = s.outcomes.insert o.replayIndex o
      ∧ (∀ id, (s.close i call o n).stage id
          = if id = o.resolvedCall.toolUseId
            then some .terminalPendingReplay else s.stage id)
      ∧ (s.close i call o n).resolvedCalls = s.resolvedCalls
      ∧ (s.close i call o n).pending = s.pending
      ∧ (s.close i call o n).observedCount = s.observedCount
      ∧ (s.close i call o n).startOrder = s.startOrder
      ∧ SameTasks
          (s.scheduledTasks.modify i fun t => { t with phase := .done })
          (s.close i call o n).scheduledTasks := by
  unfold close
  obtain ⟨reason, tasks, hsame, heq⟩ := maybeCascadeFailure_eq
    { record { s with completionIndex := n } o with
      startedCalls := (record { s with completionIndex := n } o).startedCalls.filter
        (· ≠ call.toolUseId) } o
  simp only [heq]
  refine ⟨rfl, ?_, rfl, rfl, rfl, ?_, SameTasks_modify hsame i .done⟩
  · intro id
    exact stage_record _ o id
  · show (record { s with completionIndex := n } o).startOrder = _
    simp [record, startOrder, afterEvent]

theorem close_startedCalls (i : Nat) (call : ResolvedToolCall)
    (o : ToolOutcome) (n : Nat) :
    (s.close i call o n).startedCalls
      = s.startedCalls.filter (· ≠ call.toolUseId) := by
  unfold close
  obtain ⟨reason, tasks, -, heq⟩ := maybeCascadeFailure_eq
    { record { s with completionIndex := n } o with
      startedCalls := (record { s with completionIndex := n } o).startedCalls.filter
        (· ≠ call.toolUseId) } o
  simp only [heq]
  rfl

theorem taskMove_close (i : Nat) (t : ScheduledTask) (o : ToolOutcome)
    (n : Nat) (hcall : o.resolvedCall = t.call)
    (hidx : o.replayIndex = t.call.replayIndex) :
    TaskMove s (s.close i t.call o n) i t .done := by
  obtain ⟨hout, hstage, hres, hpend, hcount, -, htasks⟩ :=
    close_eq (s := s) i t.call o n
  refine ⟨hres, hpend, hcount, ?_, ?_, htasks⟩
  · intro id hid
    rw [hstage, hcall, if_neg hid]
  · intro k hk
    rw [hout, Dict.get?_insert_of_ne _ _ (by rw [hidx]; exact hk)]

theorem TaskMove.after_started {i : Nat} {t : ScheduledTask}
    {s' : OrchestratorState} {p : TaskPhase}
    (h : TaskMove (s.markStarted t.call) s' i t p) : TaskMove s s' i t p := by
  refine ⟨h.resolvedCalls, h.pending, h.observedCount, ?_, h.outcome_of_ne,
    h.tasks⟩
  intro id hid
  rw [h.stage_of_ne id hid, stage_markStarted, if_neg hid]

end OrchestratorState

end WeaveRuntime.Tools
