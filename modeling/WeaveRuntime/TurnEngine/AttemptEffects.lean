/-
What a step of an attempt can do, and what holds of every attempt.

`AttemptEffect` is the inversion of the step function: one constructor for
each way a step goes, over the fields it writes. Everything that is proved
about runs of attempts is proved by cases on it.

`Sound` is the invariant: the orchestrator underneath is coherent, the
calls it was given are distinct calls of the attempt, and what an attempt
commits are the tool uses of the message it commits.
-/
import WeaveRuntime.Tools.Orchestration.Answers
import WeaveRuntime.TurnEngine.Attempt

namespace WeaveRuntime.TurnEngine

open Lib Tools Messages

namespace Attempt

variable {s s' : Attempt}

-- ========= the effects

def toolAction (s : Attempt) : AttemptAction → Option Tools.Action
  | .observeNext =>
    match s.queue with
    | [] => none
    | call :: _ =>
      if call.callId ∈ s.executor.observedToolUseIds then none
      else some (.observeBegin call.callId call.toolName
        s.assistantMessageId)
  | .resolved resolution conflictKey _ =>
    some (.observeResolved resolution conflictKey)
  | .resolveRaised _ => some .observeFailed
  | .tool action => some action
  | _ => none

variable {a : AttemptAction} {stream : StreamAttemptState}

theorem toolAction_of_invokes (h : a.invokes = true) :
    s.toolAction a = none := by
  cases a with
  | observeNext => cases h
  | resolved => cases h
  | resolveRaised => cases h
  | tool => cases h
  | _ => rfl

def Appends (s t : StreamAttemptState) : Prop :=
  ∃ bs, t.blocks = s.blocks ++ bs
    ∧ t.toolCalls = s.toolCalls ++ toolCallsFromMessage bs

/-- What a step does to an attempt, by the way it goes. -/
inductive AttemptEffect (s : Attempt) : AttemptAction → Attempt → Prop
  | streamed (a : AttemptAction) (stream : StreamAttemptState)
      (queue : List ToolCall) (stage : Stage) :
      s.stage = .streaming → s.awaitsModel = true →
      Appends s.stream stream → (∀ c ∈ queue, c ∈ stream.toolCalls) →
      (stage = .streaming ∧ (s.executor.effectiveTier ≠ .none →
          stream.newToolCalls = []))
        ∨ (stage = .failed ∧ queue = []) →
      a.invokes = true →
      AttemptEffect s a { s with
        stream := stream, queue := queue, stage := stage }
  | committed (a : AttemptAction) (flag : Bool) (uuid : String)
      (result : StreamAttemptState.Finalized) :
      (s.stage = .streaming ∧ s.awaitsModel = true
          ∧ flag = s.stream.pendingToolUseClosedAtMessageStop
          ∧ a = .streamEnded uuid)
        ∨ (s.stage = .failed ∧ s.left = false ∧ flag = false
          ∧ a = .closeFailed uuid) →
      s.stream.finalize s.abortReason
        (abortReasonAllowsToolFinalize s.abortReason) uuid = .ok result →
      AttemptEffect s a { s with
        result := result, pendingToolUseClosed := flag, stage := .replaying }
  | commitRaised (a : AttemptAction) (uuid : String) :
      (s.stage = .streaming ∧ a = .streamEnded uuid)
        ∨ (s.stage = .failed ∧ a = .closeFailed uuid) →
      (∃ e, s.stream.finalize s.abortReason
        (abortReasonAllowsToolFinalize s.abortReason) uuid = .error e) →
      AttemptEffect s a { s with left := true, stage := .replaying }
  | responded (a : AttemptAction) (result : StreamAttemptState.Finalized)
      (messageId : String) :
      s.stage = .responding → s.left = false →
      result.toolCalls = toolCallsFromMessage result.committedBlocks →
      a.invokes = true →
      AttemptEffect s a { s with
        result := result, assistantMessageId := messageId
        stage := .replaying }
  | skipped (call : ToolCall) (rest : List ToolCall) :
      s.observing = true → s.queue = call :: rest →
      call.callId ∈ s.executor.observedToolUseIds →
      AttemptEffect s .observeNext { s with queue := rest }
  | observed (call : ToolCall) (rest : List ToolCall)
      (o : OrchestratorState) :
      s.observing = true → s.orch.pending = none → s.queue = call :: rest →
      call.callId ∉ s.executor.observedToolUseIds →
      orchestrator.step s.orch (.observeBegin call.callId call.toolName
        s.assistantMessageId) = some o →
      AttemptEffect s .observeNext { s with
        queue := rest
        executor := { s.executor.markObserved call with orchestrator := o } }
  | resolved (r : Resolution) (ck : String → Option String)
      (message : String) (envelope : ToolCallEnvelope)
      (o : OrchestratorState) :
      s.observing = true → s.orch.pending = some envelope →
      deriveLane ck (r.resolvedCall envelope none) ≠ none →
      orchestrator.step s.orch (.observeResolved r ck) = some o →
      AttemptEffect s (.resolved r ck message) (s.setOrchestrator o)
  | observeRaised (a : AttemptAction) (b : Tools.Action)
      (message : String) :
      s.observing = true → s.orch.pending.isSome = true →
      s.toolAction a = some b →
      orchestrator.step s.orch b = some { s.orch with pending := none } →
      a = .resolveRaised message
        ∨ (∃ r ck envelope, a = .resolved r ck message
          ∧ s.orch.pending = some envelope
          ∧ deriveLane ck (r.resolvedCall envelope none) = none) →
      AttemptEffect s a
        ((s.setOrchestrator { s.orch with pending := none }).observeRaised
          message)
  | tool (b : Tools.Action) (o : OrchestratorState) :
      (∀ outs replayed, s.stage ≠ .finalized outs replayed) →
      taskAction b = true → orchestrator.step s.orch b = some o →
      AttemptEffect s (.tool b) { s.setOrchestrator o with
        abortReason := s.signalAfter o b }
  | aborted (reason : String) :
      AttemptEffect s (.abort reason) { s with abortReason := some reason }
  | replayed : s.stage = .replaying → s.left = false → s.replays = true →
      AttemptEffect s .replay s.beginFinalize
  | gathered (outs : List ToolOutcome) (replayed : OrchestratorState) :
      s.stage = .finalizing → s.left = false → s.queue = [] →
      s.orch.finalize = .ok (outs, replayed) →
      AttemptEffect s .gathered { s with stage := .finalized outs replayed }
  | left : s.left = false →
      (s.stage = .replaying ∨ s.stage = .finalizing
        ∨ ∃ outs replayed, s.stage = .finalized outs replayed) →
      AttemptEffect s .leave { s with left := true }

theorem appends_of_grows {s t : StreamAttemptState}
    (h : StreamAttemptState.Grows s t) : Appends s t := by
  obtain ⟨bs, hb, hc, -⟩ := h.appended
  exact ⟨bs, hb, hc⟩

theorem newToolCalls_mem {s t : StreamAttemptState}
    (h : StreamAttemptState.Grows s t) (hs : s.newToolCalls = [])
    {c : ToolCall} (hc : c ∈ t.newToolCalls) : c ∈ t.toolCalls := by
  obtain ⟨bs, -, hcalls, hnew⟩ := h.appended
  rw [hnew, hs, List.nil_append] at hc
  rw [hcalls]
  exact List.mem_append_right _ hc

theorem observe_error_grows (stream : StreamAttemptState)
    (event : ModelStreamEvent) (uuid uuid' : String) :
    StreamAttemptState.Grows stream
      ((StreamAttemptState.observe event uuid uuid').run stream).2 :=
  StreamAttemptState.observe_grows event uuid uuid' stream

theorem failStream_effect (a : AttemptAction) (stream : StreamAttemptState)
    (message : String) (hst : s.stage = .streaming)
    (hwait : s.awaitsModel = true) (happ : Appends s.stream stream)
    (ha : a.invokes = true) :
    AttemptEffect s a ({ s with stream := stream }.failStream message) := by
  refine .streamed a _ [] .failed hst hwait ?_ (by simp)
    (Or.inr ⟨rfl, rfl⟩) ha
  obtain ⟨bs, hb, hc⟩ := happ
  obtain ⟨bs', hb', hc'⟩ := appends_of_grows (observe_error_grows stream
    (errorEvent message s.abortReason) "" "")
  refine ⟨bs ++ bs', ?_, ?_⟩
  · rw [← List.append_assoc, ← hb]
    exact hb'
  · rw [toolCallsFromMessage, List.filterMap_append, ← List.append_assoc]
    exact hc'.trans (congrArg (· ++ toolCallsFromMessage bs') hc)

theorem appends_refl (stream : StreamAttemptState) :
    Appends stream stream := ⟨[], by simp [toolCallsFromMessage]⟩

theorem takeEvent_effect (event : ModelStreamEvent) (uuid uuid' : String)
    (hst : s.stage = .streaming) (hwait : s.awaitsModel = true)
    (hnew : s.executor.effectiveTier ≠ .none → s.stream.newToolCalls = []) :
    AttemptEffect s (.modelEvent event uuid uuid')
      (s.takeEvent event uuid uuid') := by
  have hgrows := observe_error_grows s.stream event uuid uuid'
  have happ := appends_of_grows hgrows
  have hqueue : s.queue = [] := by
    unfold awaitsModel at hwait
    simp only [Bool.and_eq_true, List.isEmpty_iff] at hwait
    exact hwait.1.2
  unfold takeEvent
  cases hrun : (StreamAttemptState.observe event uuid uuid').run s.stream with
  | mk outcome stream =>
    rw [hrun] at hgrows happ
    cases outcome with
    | error raised =>
      exact failStream_effect _ stream raised.message hst hwait happ rfl
    | ok _ =>
      dsimp only
      by_cases htier : s.executor.effectiveTier = .none
      · rw [if_pos htier]
        have heff : AttemptEffect s (.modelEvent event uuid uuid')
            { s with
              stream := stream, queue := s.queue, stage := s.stage } :=
          .streamed _ stream s.queue s.stage hst hwait happ
            (by simp [hqueue])
            (Or.inl ⟨hst, fun hne => absurd htier hne⟩) rfl
        exact heff
      · rw [if_neg htier]
        have heff : AttemptEffect s (.modelEvent event uuid uuid')
            { s with
              stream := stream.drained
              queue := s.streamedCalls event stream
              stage := s.stage } := by
          refine .streamed _ stream.drained _ s.stage hst hwait happ ?_
            (Or.inl ⟨hst, fun _ => rfl⟩) rfl
          intro c hc
          refine newToolCalls_mem hgrows (hnew htier) ?_
          unfold streamedCalls at hc
          split_ifs at hc
          · cases hc
          · cases hc
          · exact hc
        exact heff

theorem commit_effect (a : AttemptAction) (flag : Bool) (uuid : String)
    (h : (s.stage = .streaming ∧ s.awaitsModel = true
          ∧ flag = s.stream.pendingToolUseClosedAtMessageStop
          ∧ a = .streamEnded uuid)
        ∨ (s.stage = .failed ∧ s.left = false ∧ flag = false
          ∧ a = .closeFailed uuid)) :
    AttemptEffect s a (s.commit flag uuid) := by
  unfold commit
  cases hfin : s.stream.finalize s.abortReason
      (abortReasonAllowsToolFinalize s.abortReason) uuid with
  | ok result => exact .committed a flag uuid result h hfin
  | error raised =>
    refine .commitRaised a uuid ?_ ⟨raised, hfin⟩
    rcases h with ⟨hst, -, -, ha⟩ | ⟨hst, -, -, ha⟩
    · exact Or.inl ⟨hst, ha⟩
    · exact Or.inr ⟨hst, ha⟩

theorem completeBuffered_effect (a : AttemptAction)
    (blocks : List ContentBlock) (messageId : Option String)
    (terminal : ModelTerminalMetadata) (hst : s.stage = .responding)
    (hleft : s.left = false) (ha : a.invokes = true) :
    AttemptEffect s a (s.completeBuffered blocks messageId terminal) := by
  unfold completeBuffered
  dsimp only
  split_ifs
  · exact .responded a _ s.assistantMessageId hst hleft rfl ha
  · exact .responded a _ _ hst hleft rfl ha

theorem attempt_effect
    (hnew : s.stage = .streaming → s.executor.effectiveTier ≠ .none →
      s.stream.newToolCalls = []) (h : attempt.step s a = some s') :
    AttemptEffect s a s' := by
  replace h : s.step? a = some s' := h
  cases a with
  | modelEvent event uuid uuid' =>
    simp only [step?] at h
    split at h
    · next hst =>
      split_ifs at h with hwait
      cases h
      exact takeEvent_effect event uuid uuid' hst hwait (hnew hst)
    · cases h
  | streamEnded uuid =>
    simp only [step?] at h
    split at h
    · next hst =>
      split_ifs at h with hwait
      cases h
      exact commit_effect _ _ uuid (Or.inl ⟨hst, hwait, rfl, rfl⟩)
    · cases h
  | streamRaised message =>
    simp only [step?] at h
    split at h
    · next hst =>
      split_ifs at h with hwait
      cases h
      exact failStream_effect _ s.stream message hst hwait
        (appends_refl _) rfl
    · cases h
  | closeFailed uuid =>
    simp only [step?] at h
    split at h
    · next hst =>
      split_ifs at h with hleft
      cases h
      exact commit_effect _ _ uuid
        (Or.inr ⟨hst, by simpa using hleft, rfl, rfl⟩)
    · cases h
  | responded blocks messageId terminal =>
    simp only [step?] at h
    split at h
    · next hst =>
      split_ifs at h with hleft
      cases h
      exact completeBuffered_effect _ blocks messageId terminal hst
        (by simpa using hleft) rfl
    · cases h
  | responseRaised message =>
    simp only [step?] at h
    split at h
    · next hst =>
      split_ifs at h with hleft
      cases h
      exact .responded _ _ s.assistantMessageId hst
        (by simpa using hleft) rfl rfl
    · cases h
  | observeNext =>
    simp only [step?] at h
    split_ifs at h with hobs
    rw [Bool.and_eq_true, Option.isNone_iff_eq_none] at hobs
    unfold Attempt.observeNext at h
    cases hq : s.queue with
    | nil =>
      rw [hq] at h
      cases h
    | cons call rest =>
      rw [hq] at h
      dsimp only at h
      split_ifs at h with hmark
      · cases h
        exact .skipped call rest hobs.1 hq hmark
      · obtain ⟨o, ho, rfl⟩ := Option.map_eq_some_iff.1 h
        exact .observed call rest o hobs.1 hobs.2 hq hmark ho
  | resolved r ck message =>
    simp only [step?] at h
    split at h
    · cases h
    · next envelope hp =>
      split_ifs at h with hobs hlane
      · obtain ⟨o, ho, rfl⟩ := Option.map_eq_some_iff.1 h
        have hnone := Option.isNone_iff_eq_none.1 hlane
        have hstep : orchestrator.step s.orch (.observeResolved r ck)
            = some { s.orch with pending := none } := by
          show (s.orch.step? _).toOption = _
          simp only [OrchestratorState.step?, hp, hnone]
          rfl
        have hsame : o = { s.orch with pending := none } := by
          rw [hstep] at ho
          exact (Option.some.inj ho).symm
        rw [hsame]
        exact .observeRaised _ (.observeResolved r ck) message hobs
          (by rw [hp]; rfl) rfl hstep
          (Or.inr ⟨r, ck, envelope, rfl, hp, hnone⟩)
      · obtain ⟨o, ho, rfl⟩ := Option.map_eq_some_iff.1 h
        refine .resolved r ck message envelope o hobs hp ?_ ho
        intro hnone
        exact hlane (Option.isNone_iff_eq_none.2 hnone)
  | resolveRaised message =>
    simp only [step?] at h
    split_ifs at h with hobs
    obtain ⟨o, ho, rfl⟩ := Option.map_eq_some_iff.1 h
    have hp : s.orch.pending.isSome = true := by
      by_contra hp
      have hd : orchestrator.step s.orch .observeFailed = none := by
        show (s.orch.step? _).toOption = _
        simp only [OrchestratorState.step?, if_neg hp]
        rfl
      rw [hd] at ho
      cases ho
    have hstep : orchestrator.step s.orch .observeFailed
        = some { s.orch with pending := none } := by
      show (s.orch.step? _).toOption = _
      simp only [OrchestratorState.step?, if_pos hp]
      rfl
    have hsame : o = { s.orch with pending := none } := by
      rw [hstep] at ho
      exact (Option.some.inj ho).symm
    rw [hsame]
    exact .observeRaised _ .observeFailed message hobs hp rfl hstep
      (Or.inl rfl)
  | tool b =>
    simp only [step?] at h
    split at h
    · cases h
    · next hst =>
      split_ifs at h with hb
      obtain ⟨o, ho, rfl⟩ := Option.map_eq_some_iff.1 h
      rw [Bool.and_eq_true] at hb
      exact .tool b o (fun outs replayed heq => hst outs replayed heq)
        hb.1 ho
  | abort reason =>
    cases h
    exact .aborted reason
  | replay =>
    simp only [step?] at h
    split at h
    · next hst =>
      split_ifs at h with hr
      cases h
      rw [Bool.and_eq_true] at hr
      exact .replayed hst (by simpa using hr.1) hr.2
    · cases h
  | gathered =>
    simp only [step?] at h
    split at h
    · next hst =>
      split_ifs at h with hq
      obtain ⟨r, hr, rfl⟩ := Option.map_eq_some_iff.1 h
      rw [Bool.and_eq_true, List.isEmpty_iff] at hq
      refine .gathered r.1 r.2 hst (by simpa using hq.1) hq.2 ?_
      cases hfin : s.orch.finalize with
      | error e =>
        rw [hfin] at hr
        cases hr
      | ok v =>
        rw [hfin] at hr
        cases hr
        rfl
    · cases h
  | leave =>
    simp only [step?] at h
    split at h
    · next hst =>
      split_ifs at h with hleft
      cases h
      exact .left (by simpa using hleft) (Or.inl hst)
    · next hst =>
      split_ifs at h with hleft
      cases h
      exact .left (by simpa using hleft) (Or.inr (Or.inl hst))
    · next outs replayed hst =>
      split_ifs at h with hleft
      cases h
      exact .left (by simpa using hleft)
        (Or.inr (Or.inr ⟨outs, replayed, hst⟩))
    · cases h

-- ======= the invariant

/-- The calls of an attempt: those its stream closed, or its response
gave. -/
def calls (s : Attempt) : List ToolCall :=
  match s.mode with
  | .stream => s.stream.toolCalls
  | .bufferedCompletion => s.result.toolCalls

def callIds (s : Attempt) : List String := s.calls.map (·.callId)

abbrev marks (s : Attempt) : List String := s.executor.observedToolUseIds

/-- What the stage says about the calls. -/
def StageOk (s : Attempt) : Prop :=
  match s.stage with
  | .streaming => s.mode = .stream ∧ s.result.toolCalls = []
      ∧ (s.executor.effectiveTier ≠ .none → s.stream.newToolCalls = [])
  | .failed => s.mode = .stream ∧ s.queue = [] ∧ s.result.toolCalls = []
  | .responding => s.mode = .bufferedCompletion ∧ s.queue = []
      ∧ s.result.toolCalls = []
  | .replaying => s.queue = []
      ∧ (s.result.toolCalls = [] ∨ s.result.toolCalls = s.calls)
  | .finalizing => s.queue <:+ s.calls ∧ s.result.toolCalls = s.calls
  | .finalized outs _ => s.result.toolCalls = s.calls
      ∧ outs = s.orch.ordered ∧ s.orch.pending = none
      ∧ s.orch.scheduledTasks.all (·.phase = .done) = true

structure Sound (s : Attempt) : Prop where
  coherent : s.orch.Coherent
  seen : ∀ id, s.orch.stage id ≠ none → id ∈ s.marks
  distinct : s.marks.Nodup
  observed : s.orch.observedIds.Sublist s.marks
  marked : ∀ id ∈ s.marks, id ∈ s.callIds
  queued : ∀ c ∈ s.queue, c ∈ s.calls
  matched : s.stream.Matched
  committed : toolUseIds s.result.committedBlocks
    = s.result.toolCalls.map (·.callId)
  stage : s.StageOk

theorem sound_init (capabilities : NormalizedModelCapabilities)
    (mode : ModelInvocationMode) (assistantMessageId : String) :
    Sound (init capabilities mode assistantMessageId) := by
  refine ⟨OrchestratorState.coherent_init, ?_, List.nodup_nil,
    List.Sublist.refl [], ?_, ?_, rfl, rfl, ?_⟩
  · intro id h
    exact absurd rfl h
  · intro id h
    cases h
  · intro c h
    cases h
  · unfold StageOk init
    cases mode with
    | stream => exact ⟨rfl, rfl, fun _ => rfl⟩
    | bufferedCompletion => exact ⟨rfl, rfl, rfl⟩

theorem Sound.keep (hs : s.Sound) (horch : s'.orch = s.orch)
    (hmarks : s'.marks = s.marks) (hcalls : s.callIds <+: s'.callIds)
    (hqueue : ∀ c ∈ s'.queue, c ∈ s'.calls) (hmatched : s'.stream.Matched)
    (hcommitted : toolUseIds s'.result.committedBlocks
      = s'.result.toolCalls.map (·.callId))
    (hstage : s'.StageOk) : s'.Sound ∧ s.callIds <+: s'.callIds := by
  refine ⟨⟨?_, ?_, ?_, ?_, ?_, hqueue, hmatched, hcommitted, hstage⟩,
    hcalls⟩
  · rw [horch]
    exact hs.coherent
  · rw [horch, hmarks]
    exact hs.seen
  · rw [hmarks]
    exact hs.distinct
  · rw [horch, hmarks]
    exact hs.observed
  · rw [hmarks]
    intro id hid
    exact hcalls.subset (hs.marked id hid)

theorem awaitsModel_iff : s.awaitsModel = true
    ↔ s.left = false ∧ s.queue = [] ∧ s.orch.pending = none := by
  unfold awaitsModel
  simp [and_assoc]

theorem observing_iff : s.observing = true
    ↔ s.left = false ∧ (s.stage = .streaming ∨ s.stage = .finalizing) := by
  unfold observing
  rw [Bool.and_eq_true, Bool.not_eq_true']
  cases s.stage with
  | streaming => simp
  | finalizing => simp
  | _ => simp

/-- What `finalize` of a stream gives is all it observed, or no call. -/
theorem finalize_result {abortReason : Option String} {preserve : Bool}
    {uuid : String} {result : StreamAttemptState.Finalized}
    (h : stream.finalize abortReason preserve uuid = .ok result) :
    (stream.commits preserve = true ∧ result.toolCalls = stream.toolCalls
        ∧ result.committedBlocks = stream.blocks)
      ∨ (stream.commits preserve = false ∧ result.toolCalls = []
        ∧ result.committedBlocks = []) := by
  unfold StreamAttemptState.finalize at h
  unfold StreamAttemptState.commits
  by_cases hstop : stream.messageStopped = true
  · rw [if_pos hstop] at h
    cases h
    exact Or.inl ⟨by simp [hstop], rfl, rfl⟩
  · rw [if_neg hstop] at h
    by_cases hpres : (preserve && !stream.toolCalls.isEmpty) = true
    · rw [if_pos hpres] at h
      obtain ⟨discarded, -, hr⟩ := bind_eq_ok.1 h
      cases hr
      exact Or.inl ⟨by simp [hpres], rfl, rfl⟩
    · rw [if_neg hpres] at h
      obtain ⟨discarded, -, hr⟩ := bind_eq_ok.1 h
      cases hr
      refine Or.inr ⟨?_, rfl, rfl⟩
      rw [Bool.or_eq_false_iff]
      exact ⟨by simpa using hstop, by simpa using hpres⟩

theorem matched_ids (h : stream.Matched) :
    toolUseIds stream.blocks = stream.toolCalls.map (·.callId) := by
  rw [toolUseIds_eq, ← h]

theorem matched_appends {stream' : StreamAttemptState} (h : stream.Matched)
    (happ : Appends stream stream') : stream'.Matched := by
  obtain ⟨bs, hb, hc⟩ := happ
  unfold StreamAttemptState.Matched at h ⊢
  rw [hc, hb, h, toolCallsFromMessage, toolCallsFromMessage,
    toolCallsFromMessage, List.filterMap_append]

theorem calls_of_stream (h : s.mode = .stream) :
    s.calls = s.stream.toolCalls := by
  simp only [calls, h]

theorem calls_of_buffered (h : s.mode = .bufferedCompletion) :
    s.calls = s.result.toolCalls := by
  simp only [calls, h]

/-- An exception of observing a call leaves the orchestrator and the marks
alone, and fails the stream or ends the turn. -/
theorem observeRaised_fields (message : String) (hobs : s.observing = true) :
    (s.stage = .streaming ∧ s.observeRaised message = s.failStream message)
      ∨ (s.stage = .finalizing
        ∧ s.observeRaised message = { s with left := true }) := by
  obtain ⟨-, hst | hst⟩ := observing_iff.1 hobs
  · exact Or.inl ⟨hst, by simp only [observeRaised, hst]⟩
  · exact Or.inr ⟨hst, by simp only [observeRaised, hst]⟩

theorem failStream_appends (message : String) :
    Appends s.stream (s.failStream message).stream :=
  appends_of_grows (observe_error_grows _ _ _ _)

theorem StageOk.of_orchestrator (h : s.StageOk)
    (hfin : ∀ outs replayed, s.stage ≠ .finalized outs replayed)
    (o : OrchestratorState) : (s.setOrchestrator o).StageOk := by
  unfold StageOk at h ⊢
  cases hst : s.stage with
  | finalized outs replayed => exact absurd hst (hfin outs replayed)
  | _ =>
    simp only [setOrchestrator, hst] at h ⊢
    exact h

theorem Sound.observing_stage (hs : s.Sound) (h : s.observing = true) :
    (s.stage = .streaming ∧ s.mode = .stream ∧ s.result.toolCalls = []
        ∧ (s.executor.effectiveTier ≠ .none → s.stream.newToolCalls = []))
      ∨ (s.stage = .finalizing ∧ s.queue <:+ s.calls
        ∧ s.result.toolCalls = s.calls) := by
  have hok := hs.stage
  unfold StageOk at hok
  obtain ⟨-, hst | hst⟩ := observing_iff.1 h
  · rw [hst] at hok
    exact Or.inl ⟨hst, hok⟩
  · rw [hst] at hok
    exact Or.inr ⟨hst, hok⟩

theorem Sound.pop (hs : s.Sound) (hobs : s.observing = true)
    {call : ToolCall} {rest : List ToolCall} (hq : s.queue = call :: rest)
    {executor : ToolExecutor}
    (htier : executor.effectiveTier = s.executor.effectiveTier) :
    StageOk { s with queue := rest, executor := executor } := by
  unfold StageOk
  rcases hs.observing_stage hobs with ⟨hst, hrest⟩ | ⟨hst, hsuff, hres⟩
  · simp only [hst, htier]
    exact hrest
  · simp only [hst]
    rw [hq] at hsuff
    exact ⟨(List.suffix_cons call rest).trans hsuff, hres⟩

theorem Sound.failed (hs : s.Sound) (hmode : s.mode = .stream)
    (hres : s.result.toolCalls = []) (message : String) :
    (s.failStream message).Sound
      ∧ s.callIds <+: (s.failStream message).callIds := by
  obtain ⟨bs, hb, hc⟩ := failStream_appends (s := s) message
  have hcalls : (s.failStream message).calls
      = s.calls ++ toolCallsFromMessage bs := by
    rw [calls_of_stream (s := s.failStream message) hmode, hc,
      calls_of_stream hmode]
  refine hs.keep rfl rfl ?_ ?_
    (matched_appends hs.matched (failStream_appends message))
    hs.committed ⟨hmode, rfl, hres⟩
  · unfold callIds
    rw [hcalls, List.map_append]
    exact List.prefix_append _ _
  · intro c h
    cases h

theorem Sound.drained (hs : s.Sound) (hst : s.stage = .streaming) :
    s.executor.effectiveTier ≠ .none → s.stream.newToolCalls = [] := by
  have hok := hs.stage
  unfold StageOk at hok
  rw [hst] at hok
  exact hok.2.2

theorem task_observes_none {b : Tools.Action} (hb : taskAction b = true) :
    (∀ id name message, b ≠ .observeBegin id name message)
      ∧ (∀ r ck, b ≠ .observeResolved r ck) ∧ b ≠ .observeFailed := by
  refine ⟨?_, ?_, ?_⟩
  · intro id name message heq
    subst heq
    cases hb
  · intro r ck heq
    subst heq
    cases hb
  · intro heq
    subst heq
    cases hb

theorem settleTier_orchestrator (executor : ToolExecutor) (flag : Bool) :
    (executor.settleTier flag).orchestrator = executor.orchestrator := by
  unfold ToolExecutor.settleTier
  split_ifs
  · rfl
  · rfl

theorem settleTier_marks (executor : ToolExecutor) (flag : Bool) :
    (executor.settleTier flag).observedToolUseIds
      = executor.observedToolUseIds := by
  unfold ToolExecutor.settleTier
  split_ifs
  · rfl
  · rfl

theorem sound_grows (hs : s.Sound) (h : attempt.step s a = some s') :
    s'.Sound ∧ s.callIds <+: s'.callIds := by
  cases attempt_effect hs.drained h with
  | streamed _ stream queue stage hst hwait happ hq hstage ha =>
    have hok := hs.stage
    unfold StageOk at hok
    rw [hst] at hok
    obtain ⟨hmode, hres, -⟩ := hok
    obtain ⟨bs, hb, hc⟩ := happ
    refine hs.keep rfl rfl ?_ ?_
      (matched_appends hs.matched ⟨bs, hb, hc⟩) hs.committed ?_
    · unfold callIds
      rw [calls_of_stream hmode, calls_of_stream
        (s := { s with stream := stream, queue := queue, stage := stage })
        hmode]
      show s.stream.toolCalls.map _ <+: stream.toolCalls.map _
      rw [hc, List.map_append]
      exact List.prefix_append _ _
    · intro c hcq
      rw [calls_of_stream
        (s := { s with stream := stream, queue := queue, stage := stage })
        hmode]
      exact hq c hcq
    · unfold StageOk
      rcases hstage with ⟨rfl, hnone⟩ | ⟨rfl, rfl⟩
      · exact ⟨hmode, hres, hnone⟩
      · exact ⟨hmode, rfl, hres⟩
  | committed _ flag uuid result hor hfin =>
    have hok := hs.stage
    have hmode : s.mode = .stream ∧ s.queue = [] := by
      unfold StageOk at hok
      rcases hor with ⟨hst, hwait, -⟩ | ⟨hst, -⟩
      · rw [hst] at hok
        exact ⟨hok.1, (awaitsModel_iff.1 hwait).2.1⟩
      · rw [hst] at hok
        exact ⟨hok.1, hok.2.1⟩
    have hcalls : calls { s with
        result := result, pendingToolUseClosed := flag
        stage := .replaying } = s.calls := by
      rw [calls_of_stream hmode.1, calls_of_stream (s := { s with
        result := result, pendingToolUseClosed := flag
        stage := .replaying }) hmode.1]
    refine hs.keep rfl rfl ?_ ?_ hs.matched ?_ ?_
    · have hids : callIds { s with
          result := result, pendingToolUseClosed := flag
          stage := .replaying } = s.callIds :=
        congrArg (List.map fun c : ToolCall => c.callId) hcalls
      exact hids ▸ List.prefix_refl _
    · rw [hcalls]
      exact hs.queued
    · rcases finalize_result hfin with ⟨-, hr, hb⟩ | ⟨-, hr, hb⟩
      · show toolUseIds result.committedBlocks = result.toolCalls.map _
        rw [hr, hb, matched_ids hs.matched]
      · show toolUseIds result.committedBlocks = result.toolCalls.map _
        rw [hr, hb]
        rfl
    · refine ⟨hmode.2, ?_⟩
      rw [hcalls, calls_of_stream hmode.1]
      rcases finalize_result hfin with ⟨-, hr, -⟩ | ⟨-, hr, -⟩
      · exact Or.inr hr
      · exact Or.inl hr
  | commitRaised _ uuid hor =>
    have hok := hs.stage
    have hmode : s.queue = [] ∧ s.result.toolCalls = [] := by
      unfold StageOk at hok
      rcases hor with ⟨hst, rfl⟩ | ⟨hst, -⟩
      · rw [hst] at hok
        refine ⟨?_, hok.2.1⟩
        have hstep : s.step? (.streamEnded uuid) = some _ := h
        simp only [step?, hst] at hstep
        split_ifs at hstep with hwait
        exact (awaitsModel_iff.1 hwait).2.1
      · rw [hst] at hok
        exact hok.2
    exact hs.keep rfl rfl (List.prefix_refl _) hs.queued hs.matched
      hs.committed ⟨hmode.1, Or.inl hmode.2⟩
  | responded _ result messageId hst hleft hres ha =>
    have hok := hs.stage
    unfold StageOk at hok
    rw [hst] at hok
    obtain ⟨hmode, hq, hnil⟩ := hok
    have hids : s.callIds = [] := by
      unfold callIds
      rw [calls_of_buffered hmode, hnil]
      rfl
    have hcalls : calls { s with
        result := result, assistantMessageId := messageId
        stage := .replaying } = result.toolCalls :=
      calls_of_buffered (s := { s with
        result := result, assistantMessageId := messageId
        stage := .replaying }) hmode
    refine hs.keep rfl rfl ?_ ?_ hs.matched ?_ ⟨hq, Or.inr hcalls.symm⟩
    · rw [hids]
      exact List.nil_prefix
    · show ∀ c ∈ s.queue, _
      rw [hq]
      intro c h
      cases h
    · show toolUseIds result.committedBlocks = result.toolCalls.map _
      rw [hres, toolUseIds_eq]
  | skipped call rest hobs hq hmark =>
    refine hs.keep rfl rfl (List.prefix_refl _) ?_ hs.matched hs.committed
      (hs.pop hobs hq rfl)
    intro c hc
    exact hs.queued c (by rw [hq]; exact List.mem_cons_of_mem _ hc)
  | observed call rest o hobs hp hq hmark hstep =>
    obtain ⟨hfresh, hids, hseen⟩ :=
      OrchestratorState.observedIds_observe hs.coherent hstep
    have hhead : call ∈ s.calls := hs.queued call (by rw [hq]; simp)
    refine ⟨⟨OrchestratorState.coherent_step hs.coherent hstep, ?_, ?_, ?_,
      ?_, ?_, hs.matched, hs.committed, hs.pop hobs hq rfl⟩,
      List.prefix_refl _⟩
    · intro id hid
      rcases hseen id hid with rfl | hold
      · exact List.mem_append_right _ (List.mem_singleton_self _)
      · exact List.mem_append_left _ (hs.seen id hold)
    · refine List.Nodup.append hs.distinct (List.nodup_singleton _) ?_
      exact List.disjoint_singleton.2 hmark
    · show o.observedIds.Sublist _
      rw [hids]
      exact hs.observed.append_right _
    · intro id hid
      rcases List.mem_append.1 hid with hold | hnew
      · exact hs.marked id hold
      · rw [List.mem_singleton.1 hnew]
        exact List.mem_map_of_mem hhead
    · intro c hc
      exact hs.queued c (by rw [hq]; exact List.mem_cons_of_mem _ hc)
  | resolved r ck message envelope o hobs hp hlane hstep =>
    obtain ⟨hids, -, hseen⟩ :=
      OrchestratorState.observedIds_resolved hs.coherent hp hlane hstep
    refine ⟨⟨OrchestratorState.coherent_step hs.coherent hstep, ?_,
      hs.distinct, ?_, hs.marked, hs.queued, hs.matched, hs.committed,
      hs.stage.of_orchestrator ?_ o⟩, List.prefix_refl _⟩
    · intro id hid
      exact hs.seen id (hseen id hid)
    · show o.observedIds.Sublist _
      rw [hids]
      exact hs.observed
    · intro outs replayed hst
      rcases (observing_iff.1 hobs).2 with h | h
      · rw [h] at hst
        cases hst
      · rw [h] at hst
        cases hst
  | observeRaised _ b message hobs hp ha hstep hwhy =>
    have hdropped : Sound
        (s.setOrchestrator { s.orch with pending := none }) := by
      refine ⟨OrchestratorState.coherent_step hs.coherent hstep,
        hs.seen, hs.distinct, ?_, hs.marked, hs.queued, hs.matched,
        hs.committed, hs.stage.of_orchestrator ?_ _⟩
      · refine List.Sublist.trans ?_ hs.observed
        show (s.orch.resolvedCalls.map _ ++ []).Sublist _
        rw [List.append_nil]
        exact List.sublist_append_left _ _
      · intro outs replayed hst
        rcases (observing_iff.1 hobs).2 with h | h
        · rw [h] at hst
          cases hst
        · rw [h] at hst
          cases hst
    have hobs' : (s.setOrchestrator
        { s.orch with pending := none }).observing = true := hobs
    rcases observeRaised_fields message hobs' with ⟨hst, heq⟩ | ⟨hst, heq⟩
    · rw [heq]
      have hok := hdropped.stage
      unfold StageOk at hok
      rw [hst] at hok
      exact hdropped.failed hok.1 hok.2.1 message
    · rw [heq]
      exact hdropped.keep rfl rfl (List.prefix_refl _) hdropped.queued
        hdropped.matched hdropped.committed hdropped.stage
  | tool b o hfin hb hstep =>
    obtain ⟨hres, hpend, hseen⟩ := OrchestratorState.observed_of_task
      hs.coherent (task_observes_none hb)
      (OrchestratorState.effect_of_step hs.coherent hstep)
    refine ⟨⟨OrchestratorState.coherent_step hs.coherent hstep, ?_,
      hs.distinct, ?_, hs.marked, hs.queued, hs.matched, hs.committed,
      hs.stage.of_orchestrator hfin o⟩, List.prefix_refl _⟩
    · intro id hid
      exact hs.seen id (hseen id hid)
    · show o.observedIds.Sublist _
      unfold OrchestratorState.observedIds
      rw [hres, hpend]
      exact hs.observed
  | aborted reason =>
    exact hs.keep rfl rfl (List.prefix_refl _) hs.queued hs.matched
      hs.committed hs.stage
  | replayed hst hleft hrep =>
    have hok := hs.stage
    unfold StageOk at hok
    rw [hst] at hok
    have hres : s.result.toolCalls = s.calls := by
      rcases hok.2 with hnil | heq
      · unfold replays at hrep
        simp [hnil] at hrep
      · exact heq
    have hqueue : s.beginFinalize.queue <:+ s.calls := by
      unfold beginFinalize
      dsimp only
      split_ifs
      · exact List.nil_suffix
      · exact hres ▸ List.suffix_refl _
    refine hs.keep (settleTier_orchestrator _ _) (settleTier_marks _ _)
      (List.prefix_refl _) ?_ hs.matched
      hs.committed ⟨hqueue, hres⟩
    intro c hc
    exact hqueue.subset hc
  | gathered outs replayed hst hleft hq hfin =>
    have hok := hs.stage
    unfold StageOk at hok
    rw [hst] at hok
    refine hs.keep rfl rfl (List.prefix_refl _) hs.queued hs.matched
      hs.committed ⟨hok.2, ?_⟩
    rcases hs.coherent.finalize with hd | ⟨hdone, t, ht⟩
    · rw [hd] at hfin
      cases hfin
    · rw [ht] at hfin
      cases hfin
      refine ⟨rfl, ?_, hdone⟩
      unfold OrchestratorState.finalize at ht
      by_contra hp
      rw [if_pos (Or.inl (by simpa [Option.isSome_iff_ne_none] using hp))]
        at ht
      cases ht
  | left hleft hst =>
    exact hs.keep rfl rfl (List.prefix_refl _) hs.queued hs.matched
      hs.committed hs.stage

theorem sound_step (hs : s.Sound) (h : attempt.step s a = some s') :
    s'.Sound := (sound_grows hs h).1

/-- An action of the attempt that is one of the orchestrator makes its
step; another leaves the orchestrator alone. -/
theorem orch_step (hs : s.Sound) (h : attempt.step s a = some s') :
    (s.toolAction a = none ∧ s'.orch = s.orch)
      ∨ ∃ b, s.toolAction a = some b
        ∧ orchestrator.step s.orch b = some s'.orch := by
  cases attempt_effect hs.drained h with
  | streamed _ _ _ _ _ _ _ _ _ ha =>
    exact Or.inl ⟨toolAction_of_invokes ha, rfl⟩
  | committed _ _ _ _ hor =>
    rcases hor with ⟨-, -, -, rfl⟩ | ⟨-, -, -, rfl⟩
    · exact Or.inl ⟨rfl, rfl⟩
    · exact Or.inl ⟨rfl, rfl⟩
  | commitRaised _ _ hor =>
    rcases hor with ⟨-, rfl⟩ | ⟨-, rfl⟩
    · exact Or.inl ⟨rfl, rfl⟩
    · exact Or.inl ⟨rfl, rfl⟩
  | responded _ _ _ _ _ _ ha =>
    exact Or.inl ⟨toolAction_of_invokes ha, rfl⟩
  | skipped call rest _ hq hmark =>
    refine Or.inl ⟨?_, rfl⟩
    simp only [toolAction, hq, if_pos hmark]
  | observed call rest o _ _ hq hmark hstep =>
    refine Or.inr ⟨_, ?_, hstep⟩
    simp only [toolAction, hq, if_neg hmark]
  | resolved _ _ _ _ o _ _ _ hstep => exact Or.inr ⟨_, rfl, hstep⟩
  | observeRaised _ b message hobs _ ha hstep =>
    refine Or.inr ⟨b, ha, ?_⟩
    have hobs' : (s.setOrchestrator
        { s.orch with pending := none }).observing = true := hobs
    rcases observeRaised_fields message hobs' with ⟨-, heq⟩ | ⟨-, heq⟩
    · rw [heq]
      exact hstep
    · rw [heq]
      exact hstep
  | tool b o _ _ hstep => exact Or.inr ⟨b, rfl, hstep⟩
  | aborted => exact Or.inl ⟨rfl, rfl⟩
  | replayed =>
    refine Or.inl ⟨rfl, ?_⟩
    exact settleTier_orchestrator _ _
  | _ => exact Or.inl ⟨rfl, rfl⟩

end Attempt

end WeaveRuntime.TurnEngine
