/-
Which tool calls of a turn are undone with the attempt they belong to.

A full-streaming executor starts a call as soon as its input closes. When
the stream ends without being committed, the attempt's blocks and calls
are discarded, and that is all: the executor is dropped, its tasks are
neither cancelled nor awaited, and the turn goes on to the stop hooks, the
recovery decision and the next request. Only `TurnEngine.interrupt` and a
fatal failure cancel tasks.

So a call that has started outlives a discarded attempt unless it had been
cancelled, and had ended, before (`DiscardsClean`).
-/
import WeaveRuntime.Tools.Orchestration.Cascade
import WeaveRuntime.TurnEngine.AttemptEffects

namespace WeaveRuntime.TurnEngine

open Lib Tools Messages

-- ============ the turn

/-- The attempts of a turn, the last one current. -/
structure Turn where
  attempts : List Attempt := []
  finished : Bool := false

inductive TurnAction where
  /-- The next model request is issued. -/
  | request (capabilities : NormalizedModelCapabilities)
      (mode : ModelInvocationMode) (messageId : String)
  | attempt (k : Nat) (action : AttemptAction)
  /-- The turn yields its terminal event. -/
  | terminal

/-- The turn may go on to another request: the attempt has no tool calls,
or they are finalized. -/
def Attempt.mayContinue (s : Attempt) : Bool :=
  match s.stage with
  | .replaying => !s.left && s.result.toolCalls.isEmpty
  | .finalized _ _ => !s.left
  | _ => false

/-- The engine leaves the attempt, if it has not yet. -/
def Attempt.leave (s : Attempt) : Attempt := { s with left := true }

namespace Turn

def step? (s : Turn) : TurnAction → Option Turn
  | .request capabilities mode messageId =>
    let next := Attempt.init capabilities mode messageId
    match s.attempts.getLast? with
    | none => if s.finished then none else some { s with attempts := [next] }
    | some last =>
      if !s.finished && last.mayContinue then
        some { s with
          attempts := s.attempts.dropLast ++ [last.leave, next] }
      else none
  | .attempt k action =>
    match s.attempts[k]? with
    | none => none
    | some a =>
      match action with
      | .leave => none
      | _ => (TurnEngine.attempt.step a action).map fun b =>
        { s with attempts := s.attempts.set k b }
  | .terminal =>
    match s.attempts.getLast? with
    | none => none
    | some last =>
      if s.finished then none
      else if last.left then some { s with finished := true }
      else (TurnEngine.attempt.step last .leave).map fun left =>
        { attempts := s.attempts.dropLast ++ [left], finished := true }

end Turn

def turn : System Turn TurnAction where
  step := Turn.step?

namespace Attempt

variable {s s' : Attempt}

-- ======= the condition

def Streams (s : Attempt) : Prop :=
  s.stage = .streaming ∨ s.stage = .failed

def Started (s : Attempt) (task : ScheduledTask) : Prop :=
  task.call.replayIndex ∈ s.orch.startOrder

/-- The task was cancelled and has ended. -/
def Undone (task : ScheduledTask) : Prop :=
  task.numCancelsRequested ≠ 0 ∧ task.phase = .done

/-- The end of the stream commits what was observed. -/
def Commits (s : Attempt) (uuid : String) : Prop :=
  s.stream.commits (abortReasonAllowsToolFinalize s.abortReason) = true
    ∧ ∃ result, s.stream.finalize s.abortReason
      (abortReasonAllowsToolFinalize s.abortReason) uuid = .ok result

/-- Where the end of the stream discards the attempt, every call that has
started was cancelled and has ended. -/
def DiscardsClean (s : Attempt) : AttemptAction → Prop
  | .streamEnded uuid | .closeFailed uuid => ¬ s.Commits uuid →
      ∀ (i : Nat) (task : ScheduledTask),
        s.orch.scheduledTasks[i]? = some task → s.Started task →
        Undone task
  | _ => True

-- ==== one attempt's calls

/-- What becomes of the call of the task at `i`, started while the attempt
streamed: it is there still, or committed, or undone. -/
def Tracks (s : Attempt) (i : Nat) (call : ResolvedToolCall) : Prop :=
  ∃ task, s.orch.scheduledTasks[i]? = some task ∧ task.call = call
    ∧ s.Started task
    ∧ ((s.Streams ∧ s.left = false)
      ∨ (¬ s.Streams ∧ s.stage ≠ .responding
        ∧ (call.toolUseId ∈ toolUseIds s.result.committedBlocks
          ∨ Undone task)))

variable {call : ResolvedToolCall} {i : Nat}

theorem Sound.task_call (hs : s.Sound) {task : ScheduledTask}
    (h : s.orch.scheduledTasks[i]? = some task) :
    task.call.toolUseId ∈ s.callIds := by
  refine hs.marked _ (hs.observed.subset ?_)
  exact List.mem_append_left _
    (List.mem_map_of_mem (hs.coherent.mem_of_task h).1)

theorem Tracks.of_same (h : s.Tracks i call) (horch : s'.orch = s.orch)
    (hend : ∀ task, s.orch.scheduledTasks[i]? = some task →
      task.call = call → s.Started task →
      ((s.Streams ∧ s.left = false)
        ∨ (¬ s.Streams ∧ s.stage ≠ .responding
          ∧ (call.toolUseId ∈ toolUseIds s.result.committedBlocks
            ∨ Undone task))) →
      ((s'.Streams ∧ s'.left = false)
        ∨ (¬ s'.Streams ∧ s'.stage ≠ .responding
          ∧ (call.toolUseId ∈ toolUseIds s'.result.committedBlocks
            ∨ Undone task)))) : s'.Tracks i call := by
  obtain ⟨task, ht, hcall, hstart, hor⟩ := h
  refine ⟨task, by rw [horch]; exact ht, hcall, ?_,
    hend task ht hcall hstart hor⟩
  unfold Started
  rw [horch]
  exact hstart

theorem Tracks.of_orch (hs : s.Sound) (h : s.Tracks i call) {b : Tools.Action}
    (hstep : orchestrator.step s.orch b = some s'.orch)
    (hstream : s.Streams → s'.Streams ∧ s'.left = s.left)
    (hrest : ¬ s.Streams → ¬ s'.Streams ∧
      (s.stage ≠ .responding → s'.stage ≠ .responding))
    (hresult : s'.result = s.result) : s'.Tracks i call := by
  obtain ⟨task, ht, hcall, hstart, hor⟩ := h
  have heff := OrchestratorState.effect_of_step hs.coherent hstep
  obtain ⟨u, hu, hucall, hdone, hcancel⟩ :=
    OrchestratorState.task_goes_on hs.coherent heff ht
  refine ⟨u, hu, hucall.trans hcall, ?_, ?_⟩
  · unfold Started
    rw [hucall]
    exact OrchestratorState.startOrder_grows hs.coherent heff hstart
  · rcases hor with ⟨hst, hleft⟩ | ⟨hst, hresp, hwhat⟩
    · obtain ⟨hst', hleft'⟩ := hstream hst
      exact Or.inl ⟨hst', hleft'.trans hleft⟩
    · obtain ⟨hst', hresp'⟩ := hrest hst
      refine Or.inr ⟨hst', hresp' hresp, ?_⟩
      rw [hresult]
      rcases hwhat with hcom | ⟨hc, hd⟩
      · exact Or.inl hcom
      · refine Or.inr ⟨?_, hdone hd⟩
        omega

/-- The end of the stream settles what becomes of a started call. -/
theorem Tracks.of_end (hs : s.Sound) (h : s.Tracks i call) (uuid : String)
    (hclean : ¬ s.Commits uuid → ∀ (i : Nat) (task : ScheduledTask),
      s.orch.scheduledTasks[i]? = some task → s.Started task → Undone task)
    (hmode : s.mode = .stream) (horch : s'.orch = s.orch)
    (hst : s'.stage = .replaying)
    (hresult : s.Commits uuid → s'.result.committedBlocks = s.stream.blocks) :
    s'.Tracks i call := by
  refine h.of_same horch ?_
  intro task ht hcall hstart _
  refine Or.inr ⟨?_, by simp [hst], ?_⟩
  · unfold Streams
    simp [hst]
  · by_cases hcom : s.Commits uuid
    · refine Or.inl ?_
      rw [hresult hcom, matched_ids hs.matched, ← hcall]
      have hmem := hs.task_call ht
      unfold callIds at hmem
      rwa [calls_of_stream hmode] at hmem
    · exact Or.inr (hclean hcom i task ht hstart)

theorem Sound.mode_of_streams (hs : s.Sound) (h : s.Streams) :
    s.mode = .stream := by
  have hok := hs.stage
  unfold StageOk at hok
  rcases h with hst | hst
  · rw [hst] at hok
    exact hok.1
  · rw [hst] at hok
    exact hok.1

def Live (s : Attempt) : Prop := s.Streams → s.left = false

theorem live_step (hs : s.Sound) (hlive : s.Live) {a : AttemptAction}
    (h : attempt.step s a = some s') : s'.Live := by
  have hstage : ∀ st : Stage, st ≠ .streaming → st ≠ .failed →
      s'.stage = st → s'.Live := by
    intro st h1 h2 hst hstream
    rcases hstream with h' | h'
    · exact absurd (hst.symm.trans h') h1
    · exact absurd (hst.symm.trans h') h2
  cases attempt_effect hs.drained h with
  | streamed _ _ _ _ _ hwait => exact fun _ => (awaitsModel_iff.1 hwait).1
  | skipped _ _ hobs => exact fun _ => (observing_iff.1 hobs).1
  | observed _ _ _ hobs => exact fun _ => (observing_iff.1 hobs).1
  | resolved _ _ _ _ _ hobs => exact fun _ => (observing_iff.1 hobs).1
  | observeRaised _ b message hobs =>
    have hobs' : (s.setOrchestrator
        { s.orch with pending := none }).observing = true := hobs
    rcases observeRaised_fields message hobs' with ⟨-, heq⟩ | ⟨hst, heq⟩
    · rw [heq]
      exact fun _ => (observing_iff.1 hobs).1
    · exact hstage _ (by simp) (by simp) ((congrArg stage heq).trans hst)
  | tool => exact hlive
  | aborted => exact hlive
  | replayed => exact hstage .finalizing (by simp) (by simp) rfl
  | gathered => exact hstage _ (by simp) (by simp) rfl
  | left _ hst =>
    intro hstream
    rcases hstream with h' | h'
    · simp only at h'
      simp [h'] at hst
    · simp only at h'
      simp [h'] at hst
  | _ => exact hstage _ (by simp) (by simp) rfl

/-- A step that discards nothing but clean keeps track of every call that
started while the attempt streamed. -/
theorem tracks_step (hs : s.Sound) {a : AttemptAction}
    (h : attempt.step s a = some s') (hclean : s.DiscardsClean a)
    (htrack : s.Tracks i call) : s'.Tracks i call := by
  have hobserving : s.observing = true → ¬ s.Streams →
      s.stage = .finalizing := by
    intro hobs hnot
    rcases (observing_iff.1 hobs).2 with hst | hst
    · exact absurd (Or.inl hst) hnot
    · exact hst
  cases attempt_effect hs.drained h with
  | streamed _ stream queue stage hst hwait _ _ hstage _ =>
    refine htrack.of_same rfl fun _ _ _ _ _ => Or.inl ⟨?_, ?_⟩
    · rcases hstage with ⟨hst', -⟩ | ⟨hst', -⟩
      · exact Or.inl hst'
      · exact Or.inr hst'
    · exact (awaitsModel_iff.1 hwait).1
  | committed _ flag uuid result hor hfin =>
    have hmode : s.mode = .stream := by
      rcases hor with ⟨hst, -⟩ | ⟨hst, -⟩
      · exact hs.mode_of_streams (Or.inl hst)
      · exact hs.mode_of_streams (Or.inr hst)
    refine htrack.of_end hs uuid ?_ hmode rfl rfl ?_
    · rcases hor with ⟨-, -, -, rfl⟩ | ⟨-, -, -, rfl⟩
      · exact hclean
      · exact hclean
    · intro hcom
      rcases finalize_result hfin with ⟨-, -, hb⟩ | ⟨hno, -, -⟩
      · exact hb
      · rw [hcom.1] at hno
        cases hno
  | commitRaised _ uuid hor herr =>
    have hmode : s.mode = .stream := by
      rcases hor with ⟨hst, -⟩ | ⟨hst, -⟩
      · exact hs.mode_of_streams (Or.inl hst)
      · exact hs.mode_of_streams (Or.inr hst)
    refine htrack.of_end hs uuid ?_ hmode rfl rfl ?_
    · rcases hor with ⟨-, rfl⟩ | ⟨-, rfl⟩
      · exact hclean
      · exact hclean
    · intro hcom
      obtain ⟨result, hres⟩ := hcom.2
      obtain ⟨e, he⟩ := herr
      rw [hres] at he
      cases he
  | responded _ result messageId hst =>
    obtain ⟨task, ht, hcall, hstart, hor⟩ := htrack
    rcases hor with ⟨hstream, -⟩ | ⟨-, hresp, -⟩
    · rcases hstream with h' | h'
      · rw [hst] at h'
        cases h'
      · rw [hst] at h'
        cases h'
    · exact absurd hst hresp
  | skipped call rest hobs hq hmark =>
    exact htrack.of_same rfl fun _ _ _ _ hor => hor
  | observed call rest o hobs hp hq hmark hstep =>
    exact htrack.of_orch hs hstep (fun hst => ⟨hst, rfl⟩)
      (fun hst => ⟨hst, id⟩) rfl
  | resolved r ck message envelope o hobs hp hlane hstep =>
    exact htrack.of_orch hs hstep (fun hst => ⟨hst, rfl⟩)
      (fun hst => ⟨hst, id⟩) rfl
  | observeRaised _ b message hobs hp ha hstep hwhy =>
    have hobs' : (s.setOrchestrator
        { s.orch with pending := none }).observing = true := hobs
    rcases observeRaised_fields message hobs' with ⟨hst, heq⟩ | ⟨hst, heq⟩
    · rw [heq]
      refine htrack.of_orch hs (b := b) hstep
        (fun _ => ⟨Or.inr rfl, rfl⟩) (fun hnot => ?_) rfl
      exact absurd (Or.inl hst) hnot
    · rw [heq]
      refine htrack.of_orch hs (b := b) hstep (fun hstream => ?_)
        (fun hnot => ⟨hnot, id⟩) rfl
      rcases hstream with h' | h'
      · have hst' : s.stage = .finalizing := hst
        rw [hst'] at h'
        cases h'
      · have hst' : s.stage = .finalizing := hst
        rw [hst'] at h'
        cases h'
  | tool b o hfin hb hstep =>
    exact htrack.of_orch hs hstep (fun hst => ⟨hst, rfl⟩)
      (fun hst => ⟨hst, id⟩) rfl
  | aborted reason => exact htrack.of_same rfl fun _ _ _ _ hor => hor
  | replayed hst hleft hrep =>
    refine htrack.of_same (settleTier_orchestrator _ _) ?_
    intro _ _ _ _ hor
    rcases hor with ⟨hstream, -⟩ | ⟨-, -, hwhat⟩
    · rcases hstream with h' | h'
      · rw [hst] at h'
        cases h'
      · rw [hst] at h'
        cases h'
    · exact Or.inr ⟨by simp [Streams, beginFinalize],
        by simp [beginFinalize], hwhat⟩
  | gathered outs replayed hst hleft hq hfin =>
    refine htrack.of_same rfl ?_
    intro _ _ _ _ hor
    rcases hor with ⟨hstream, -⟩ | ⟨-, -, hwhat⟩
    · rcases hstream with h' | h'
      · rw [hst] at h'
        cases h'
      · rw [hst] at h'
        cases h'
    · exact Or.inr ⟨by simp [Streams], by simp, hwhat⟩
  | left hleft hst =>
    refine htrack.of_same rfl ?_
    intro _ _ _ _ hor
    rcases hor with ⟨hstream, -⟩ | hrest
    · rcases hstream with h' | h'
      · simp [h'] at hst
      · simp [h'] at hst
    · exact Or.inr hrest

end Attempt

namespace Turn

variable {s s' : Turn}

-- ====== the whole turn

inductive TurnEffect (s : Turn) : TurnAction → List Attempt → Prop
  | first (capabilities : NormalizedModelCapabilities)
      (mode : ModelInvocationMode) (messageId : String) :
      s.attempts = [] →
      TurnEffect s (.request capabilities mode messageId)
        [Attempt.init capabilities mode messageId]
  | next (capabilities : NormalizedModelCapabilities)
      (mode : ModelInvocationMode) (messageId : String)
      (before : List Attempt) (last : Attempt) :
      s.attempts = before ++ [last] →
      attempt.step last .leave = some last.leave →
      TurnEffect s (.request capabilities mode messageId)
        (before ++ [last.leave, Attempt.init capabilities mode messageId])
  | moved (k : Nat) (a : AttemptAction) (u v : Attempt) :
      s.attempts[k]? = some u → attempt.step u a = some v →
      TurnEffect s (.attempt k a) (s.attempts.set k v)
  | ended : TurnEffect s .terminal s.attempts
  | left (before : List Attempt) (last v : Attempt) :
      s.attempts = before ++ [last] → attempt.step last .leave = some v →
      TurnEffect s .terminal (before ++ [v])

theorem leave_of_mayContinue {a : Attempt} (h : a.mayContinue = true) :
    attempt.step a .leave = some a.leave := by
  show a.step? .leave = _
  unfold Attempt.mayContinue at h
  cases hst : a.stage with
  | replaying =>
    simp only [hst, Bool.and_eq_true, Bool.not_eq_true'] at h
    simp [Attempt.step?, hst, h.1, Attempt.leave]
  | finalized outs replayed =>
    simp only [hst, Bool.not_eq_true'] at h
    simp [Attempt.step?, hst, h, Attempt.leave]
  | _ => simp [hst] at h

theorem turn_effect {a : TurnAction} (h : turn.step s a = some s') :
    TurnEffect s a s'.attempts := by
  replace h : s.step? a = some s' := h
  cases a with
  | request capabilities mode messageId =>
    simp only [step?] at h
    split at h
    · next hlast =>
      split_ifs at h
      cases h
      exact .first _ _ _ (List.getLast?_eq_none_iff.1 hlast)
    · next last hlast =>
      split_ifs at h with hmay
      cases h
      rw [Bool.and_eq_true] at hmay
      obtain ⟨before, hbefore⟩ := List.getLast?_eq_some_iff.1 hlast
      have hdrop : s.attempts.dropLast = before := by
        rw [hbefore, List.dropLast_concat]
      simp only [hdrop]
      exact .next _ _ _ before last hbefore (leave_of_mayContinue hmay.2)
  | attempt k action =>
    simp only [step?] at h
    split at h
    · cases h
    · next u hu =>
      split at h
      · cases h
      · obtain ⟨v, hv, rfl⟩ := Option.map_eq_some_iff.1 h
        exact .moved k action u v hu hv
  | terminal =>
    simp only [step?] at h
    split at h
    · cases h
    · next last hlast =>
      split_ifs at h
      · cases h
        exact .ended
      · obtain ⟨v, hv, rfl⟩ := Option.map_eq_some_iff.1 h
        obtain ⟨before, hbefore⟩ := List.getLast?_eq_some_iff.1 hlast
        simp only [hbefore, List.dropLast_concat]
        exact .left before last v hbefore hv

/-- Every attempt of the turn is sound, and those that stream are not
left. -/
def Sound (s : Turn) : Prop := ∀ a ∈ s.attempts, a.Sound ∧ a.Live

theorem sound_step (hs : s.Sound) {a : TurnAction}
    (h : turn.step s a = some s') : s'.Sound := by
  have hinit : ∀ capabilities mode messageId,
      (Attempt.init capabilities mode messageId).Sound
        ∧ (Attempt.init capabilities mode messageId).Live :=
    fun capabilities mode messageId =>
      ⟨Attempt.sound_init _ _ _, fun _ => rfl⟩
  have hkeep : ∀ {u v : Attempt} {act : AttemptAction},
      u.Sound ∧ u.Live → attempt.step u act = some v → v.Sound ∧ v.Live :=
    fun hu hv => ⟨Attempt.sound_step hu.1 hv, Attempt.live_step hu.1 hu.2 hv⟩
  intro b hb
  have heff := turn_effect h
  generalize s'.attempts = attempts at hb heff
  cases heff with
  | first capabilities mode messageId _ =>
    rw [List.mem_singleton.1 hb]
    exact hinit _ _ _
  | next capabilities mode messageId before last hlast hleave =>
    rcases List.mem_append.1 hb with hold | hnew
    · exact hs b (by rw [hlast]; exact List.mem_append_left _ hold)
    · rcases List.mem_cons.1 hnew with rfl | hnew
      · exact hkeep (hs last (by rw [hlast]; simp)) hleave
      · rw [List.mem_singleton.1 hnew]
        exact hinit _ _ _
  | moved k act u v hu hv =>
    rcases List.mem_or_eq_of_mem_set hb with hold | rfl
    · exact hs b hold
    · exact hkeep (hs u (List.mem_of_getElem? hu)) hv
  | ended => exact hs b hb
  | left before last v hlast hleave =>
    rcases List.mem_append.1 hb with hold | hnew
    · exact hs b (by rw [hlast]; exact List.mem_append_left _ hold)
    · rw [List.mem_singleton.1 hnew]
      exact hkeep (hs last (by rw [hlast]; simp)) hleave

/-- An attempt of the turn stays in its place and makes at most one step
of its own. -/
theorem attempt_goes_on {a : TurnAction} (h : turn.step s a = some s')
    {k : Nat} {u : Attempt} (hu : s.attempts[k]? = some u) :
    ∃ v, s'.attempts[k]? = some v
      ∧ (v = u ∨ ∃ act, (a = .attempt k act ∨ act = .leave)
        ∧ attempt.step u act = some v) := by
  have heff := turn_effect h
  generalize s'.attempts = attempts at heff
  have hlastPlace : ∀ {before : List Attempt} {last : Attempt},
      s.attempts = before ++ [last] →
      (k < before.length ∧ before[k]? = some u)
        ∨ (k = before.length ∧ u = last) := by
    intro before last hlast
    rw [hlast, List.getElem?_append] at hu
    split_ifs at hu with hk
    · exact Or.inl ⟨hk, hu⟩
    · rw [List.getElem?_singleton] at hu
      split_ifs at hu with hzero
      cases hu
      exact Or.inr ⟨by omega, rfl⟩
  cases heff with
  | first _ _ _ hnil =>
    rw [hnil] at hu
    cases hu
  | next capabilities mode messageId before last hlast hleave =>
    rcases hlastPlace hlast with ⟨hk, hb⟩ | ⟨rfl, rfl⟩
    · refine ⟨u, ?_, Or.inl rfl⟩
      rw [List.getElem?_append_left hk, hb]
    · refine ⟨u.leave, ?_, Or.inr ⟨.leave, Or.inr rfl, hleave⟩⟩
      rw [List.getElem?_append_right (Nat.le_refl _), Nat.sub_self]
      rfl
  | moved j act w v hw hv =>
    by_cases hjk : j = k
    · subst hjk
      rw [hu] at hw
      cases hw
      refine ⟨v, ?_, Or.inr ⟨act, Or.inl rfl, hv⟩⟩
      exact List.getElem?_set_self (List.getElem?_eq_some_iff.1 hu).1
    · refine ⟨u, ?_, Or.inl rfl⟩
      rw [List.getElem?_set_ne hjk, hu]
  | ended => exact ⟨u, hu, Or.inl rfl⟩
  | left before last v hlast hleave =>
    rcases hlastPlace hlast with ⟨hk, hb⟩ | ⟨rfl, rfl⟩
    · refine ⟨u, ?_, Or.inl rfl⟩
      rw [List.getElem?_append_left hk, hb]
    · refine ⟨v, ?_, Or.inr ⟨.leave, Or.inr rfl, hleave⟩⟩
      rw [List.getElem?_append_right (Nat.le_refl _), Nat.sub_self]
      rfl

/-- The step discards no attempt whose started calls are not undone. -/
def DiscardsClean (s : Turn) : TurnAction → Prop
  | .attempt k a => ∀ u, s.attempts[k]? = some u → u.DiscardsClean a
  | _ => True

/-- A call started while its attempt streamed in `u` is, where the engine
has left the attempt in `v`, committed or undone. -/
def NoGhost (u v : Turn) : Prop :=
  ∀ (k : Nat) (a b : Attempt), u.attempts[k]? = some a →
    v.attempts[k]? = some b → a.Streams → b.left = true →
    ∀ (i : Nat) (task : ScheduledTask),
      a.orch.scheduledTasks[i]? = some task → a.Started task →
      task.call.toolUseId ∈ toolUseIds b.result.committedBlocks
        ∨ ∃ task', b.orch.scheduledTasks[i]? = some task'
          ∧ task'.call = task.call ∧ Attempt.Undone task'

end Turn

section FixedRuns

/-! A stream that closes one tool call and is then cut off: the call runs,
the attempt is discarded, and the next request is issued. -/

def streamedRoute : NormalizedModelCapabilities :=
  { streamingToolCallDeltas := true, toolCallFinalizeBoundary := true }

def streamedCall : List TurnAction :=
  [.request streamedRoute .stream "message-1",
    .attempt 0 (.modelEvent
      { eventType := .toolCall
        payload := [(.str "tool_name", .str "write"),
          (.str "call_id", .str "call-1")] } "" ""),
    .attempt 0 .observeNext,
    .attempt 0 (.resolved writeTool some ""),
    .attempt 0 (.tool (.firstStep 0 some))]

def cutOff : List TurnAction :=
  [.attempt 0 (.streamEnded ""), .request streamedRoute .stream "message-2"]

def stoppedCall : List TurnAction :=
  streamedCall ++ [.attempt 0 (.modelEvent { eventType := .messageStop } "" ""),
    .attempt 0 (.streamEnded "")]

theorem stopped_discards_clean (s : Turn) (a : TurnAction) (s' : Turn)
    (h : turn.Takes {} stoppedCall s a s') : s.DiscardsClean a := by
  rcases (System.takes_cons rfl).1 h with ⟨rfl, rfl, -⟩ | h
  · exact trivial
  rcases (System.takes_cons rfl).1 h with ⟨rfl, rfl, -⟩ | h
  · exact fun _ _ => trivial
  rcases (System.takes_cons rfl).1 h with ⟨rfl, rfl, -⟩ | h
  · exact fun _ _ => trivial
  rcases (System.takes_cons rfl).1 h with ⟨rfl, rfl, -⟩ | h
  · exact fun _ _ => trivial
  rcases (System.takes_cons rfl).1 h with ⟨rfl, rfl, -⟩ | h
  · exact fun _ _ => trivial
  rcases (System.takes_cons rfl).1 h with ⟨rfl, rfl, -⟩ | h
  · exact fun _ _ => trivial
  rcases (System.takes_cons rfl).1 h with ⟨rfl, rfl, -⟩ | h
  · intro u hu hdiscard
    cases hu
    exact absurd ⟨rfl, _, rfl⟩ hdiscard
  · obtain ⟨p, q, heq, -⟩ := h
    cases p with
    | nil => cases heq
    | cons _ _ => cases heq

end FixedRuns

end WeaveRuntime.TurnEngine
