/-
When the outcomes of an attempt answer the calls it commits.

An executor observes calls while they stream, or the list `finalize` is
given, never both; the outcomes come in the order of observation. So what
`finalize` returns is one outcome for each committed call, in their order,
exactly when

- no observed call is lost or answered under another's id: a matter of the
  orchestrator's own steps (`Recorded`, `Addressed`);
- the calls are observed completely and in the order of the message
  (`InOrder`): a matter of the engine's steps (`KeepsOrder`).

# Which steps lose the order

A call that closes after a message stop closed an open tool use is
observed before that one. An exception of a resolution drops the call it
resolves. And the full-streaming executor takes the list of `finalize` for
nothing: what was never observed, because the response was buffered or the
stream raised in between, gets no outcome.
-/
import Mathlib.Data.List.Perm.Subperm
import WeaveRuntime.TurnEngine.AttemptEffects

namespace WeaveRuntime.TurnEngine

open Lib Tools Messages

namespace Attempt

variable {s s' : Attempt}

-- ==== what is answered

/-- The outcomes are one for each committed call, in order, and the
follow-up message answers the tool uses of the committed one. -/
def AnswersCalls (s : Attempt) (outcomes : List ToolOutcome) : Prop :=
  outcomes.map (·.resolvedCall.toolUseId)
      = s.result.toolCalls.map (·.callId)
    ∧ (toolResultContent outcomes).filterMap toolResultId?
      = toolUseIds s.result.committedBlocks

/-- The calls are observed in the order of the message, without a gap. -/
def Aligned (s : Attempt) : Prop :=
  s.orch.observedIds = s.marks ∧ s.marks <+: s.callIds

/-- Once `finalize` has begun, what is left to observe completes the
calls. -/
def Complete (s : Attempt) : Prop :=
  match s.stage with
  | .finalizing =>
    s.marks ++ (s.queue.filter fun c => c.callId ∉ s.marks).map (·.callId)
      = s.callIds
  | .finalized _ _ => s.marks = s.callIds
  | _ => True

def InOrder (s : Attempt) : Prop := s.Aligned ∧ s.Complete

/-- The step observes no call out of its turn, drops none, and does not
begin a full-streaming `finalize` with a call unobserved. -/
def KeepsOrder (s : Attempt) : AttemptAction → Prop
  | .observeNext => ∀ call rest, s.queue = call :: rest →
      call.callId ∉ s.marks → s.callIds[s.marks.length]? = some call.callId
  | .resolved resolution conflictKey _ => ∀ envelope,
      s.orch.pending = some envelope →
      deriveLane conflictKey (resolution.resolvedCall envelope none) ≠ none
  | .resolveRaised _ => False
  | .replay =>
    (s.executor.settleTier s.pendingToolUseClosed).effectiveTier
      = .fullStreaming →
    ∀ call ∈ s.result.toolCalls, call.callId ∈ s.marks
  | _ => True

/-- The step keeps the order, and loses or misaddresses no result. -/
def KeepsCalls (s : Attempt) (a : AttemptAction) : Prop :=
  s.KeepsOrder a ∧ ∀ b, s.toolAction a = some b →
    s.orch.KeepsResult b ∧ s.orch.KeepsAddress b

-- =========== the order

theorem Sound.marks_length (hs : s.Sound) :
    s.marks.length ≤ s.callIds.length :=
  (List.Nodup.subperm hs.distinct hs.marked).length_le

theorem Sound.prefix_iff (hs : s.Sound) {ids : List String}
    (h : s.callIds <+: ids) : s.marks <+: ids ↔ s.marks <+: s.callIds :=
  ⟨fun hp => List.prefix_of_prefix_length_le hp h hs.marks_length,
    fun hp => hp.trans h⟩

theorem prefix_concat_iff {xs ids : List String} {x : String} :
    xs ++ [x] <+: ids ↔ xs <+: ids ∧ ids[xs.length]? = some x := by
  refine ⟨fun h => ?_, fun h => ?_⟩
  · obtain ⟨rest, rfl⟩ := h
    refine ⟨⟨x :: rest, by simp⟩, ?_⟩
    simp
  · obtain ⟨⟨rest, rfl⟩, hx⟩ := h
    rw [List.getElem?_append_right (Nat.le_refl _), Nat.sub_self] at hx
    cases rest with
    | nil => cases hx
    | cons y rest =>
      cases hx
      exact ⟨rest, by simp⟩

/-- Where all of distinct calls are marked and the marks are in order,
they are the calls. -/
theorem marks_eq_of_all {xs ids : List String} (hnd : ids.Nodup)
    (hp : xs <+: ids) : (∀ id ∈ ids, id ∈ xs) ↔ xs = ids := by
  refine ⟨fun hall => ?_, fun heq id hid => by rwa [heq]⟩
  exact hp.eq_of_length_le (List.Nodup.subperm hnd hall).length_le

theorem filter_unmarked {xs : List String} {calls : List ToolCall}
    (hnd : (calls.map (·.callId)).Nodup) (hp : xs <+: calls.map (·.callId)) :
    xs ++ (calls.filter fun c => c.callId ∉ xs).map (·.callId)
      = calls.map (·.callId) := by
  obtain ⟨rest, hrest⟩ := hp
  have hfilter : (calls.filter fun c => c.callId ∉ xs).map (·.callId)
      = (calls.map (·.callId)).filter fun id => id ∉ xs := by
    rw [List.filter_map]
    rfl
  rw [hfilter, ← hrest, List.filter_append]
  have hxs : xs.filter (fun id => id ∉ xs) = [] := by
    rw [List.filter_eq_nil_iff]
    intro id hid
    simpa using hid
  have hkeep : rest.filter (fun id => id ∉ xs) = rest := by
    rw [List.filter_eq_self]
    intro id hid
    rw [← hrest] at hnd
    have hdis := List.disjoint_of_nodup_append hnd
    simpa using fun hx => hdis hx hid
  rw [hxs, hkeep, List.nil_append]

/-- A step that leaves the observed calls and the marks alone keeps them
aligned or not. -/
theorem Sound.aligned_iff (hs : s.Sound)
    (hobs : s'.orch.observedIds = s.orch.observedIds)
    (hmarks : s'.marks = s.marks) (hcalls : s.callIds <+: s'.callIds) :
    s'.Aligned ↔ s.Aligned := by
  unfold Aligned
  rw [hobs, hmarks, hs.prefix_iff hcalls]

theorem complete_of_stage (hfin : s.stage ≠ .finalizing)
    (hfin' : ∀ outs replayed, s.stage ≠ .finalized outs replayed) :
    s.Complete := by
  unfold Complete
  split
  · next h => exact absurd h hfin
  · next h => exact absurd h (hfin' _ _)
  · exact trivial

theorem Sound.complete_observed (hs : s.Sound) (hnd : s.callIds.Nodup)
    (hobs : s.observing = true) {call : ToolCall} {rest : List ToolCall}
    (hq : s.queue = call :: rest) (hmark : call.callId ∉ s.marks)
    (o : OrchestratorState) :
    Complete { s with
      queue := rest
      executor := { s.executor.markObserved call with orchestrator := o } }
      ↔ s.Complete := by
  unfold Complete
  rcases hs.observing_stage hobs with ⟨hst, -⟩ | ⟨hst, hsuff, -⟩
  · simp only [hst]
  · simp only [hst, hq]
    have hfresh : ∀ c ∈ rest, c.callId ≠ call.callId := by
      have hids : (s.queue.map (·.callId)).Nodup :=
        (hsuff.sublist.map _).nodup hnd
      rw [hq, List.map_cons, List.nodup_cons] at hids
      intro c hc heq
      exact hids.1 (by rw [← heq]; exact List.mem_map_of_mem hc)
    have hfilter : rest.filter
          (fun c => c.callId ∉ s.marks ++ [call.callId])
        = rest.filter fun c => c.callId ∉ s.marks := by
      refine List.filter_congr fun c hc => ?_
      have hne := hfresh c hc
      simp [hne]
    have hhead : (call :: rest).filter (fun c => c.callId ∉ s.marks)
        = call :: rest.filter fun c => c.callId ∉ s.marks := by
      rw [List.filter_cons_of_pos (by simpa using hmark)]
    rw [hhead, List.map_cons]
    show s.marks ++ [call.callId] ++ (rest.filter
      fun c => c.callId ∉ s.marks ++ [call.callId]).map _ = s.callIds ↔ _
    rw [hfilter, List.append_assoc, List.singleton_append]

theorem Sound.not_aligned_of_dropped (hs : s.Sound)
    (hp : s.orch.pending.isSome = true)
    (hobs : s'.orch.observedIds = s.orch.resolvedCalls.map (·.toolUseId))
    (hmarks : s'.marks = s.marks) : ¬ s'.Aligned := by
  intro h
  have hlen := hs.observed.length_le
  have heq : (s.orch.resolvedCalls.map (·.toolUseId)).length
      = s.marks.length := by
    rw [← hobs, h.1, hmarks]
  obtain ⟨e, he⟩ := Option.isSome_iff_exists.1 hp
  unfold OrchestratorState.observedIds at hlen
  rw [he] at hlen
  simp only [List.length_append, List.length_map, Option.toList_some,
    List.length_singleton] at hlen heq
  omega

/-- One step: calls in order stay so exactly when the step keeps the
order, and calls out of order stay so. -/
theorem inOrder_step (hs : s.Sound) {a : AttemptAction}
    (h : attempt.step s a = some s') (hnd : s'.callIds.Nodup) :
    (s.InOrder → (s'.InOrder ↔ s.KeepsOrder a))
      ∧ (s'.InOrder → s.InOrder) := by
  have hcalls := (sound_grows hs h).2
  have hnds : s.callIds.Nodup := hcalls.sublist.nodup hnd
  -- a step that touches no observed call
  have hsame : s'.orch.observedIds = s.orch.observedIds →
      s'.marks = s.marks → (s'.Complete ↔ s.Complete) → s.KeepsOrder a →
      (s.InOrder → (s'.InOrder ↔ s.KeepsOrder a))
        ∧ (s'.InOrder → s.InOrder) := by
    intro hobs hmarks hcomp hkeep
    have hiff : s'.InOrder ↔ s.InOrder :=
      and_congr (hs.aligned_iff hobs hmarks hcalls) hcomp
    exact ⟨fun hin => iff_of_true (hiff.2 hin) hkeep, hiff.1⟩
  have hinvoke : a.invokes = true → s.KeepsOrder a := by
    intro ha
    cases a with
    | observeNext => cases ha
    | resolved => cases ha
    | resolveRaised => cases ha
    | replay => cases ha
    | _ => exact trivial
  cases attempt_effect hs.drained h with
  | streamed _ stream queue stage hst _ _ _ hstage ha =>
    refine hsame rfl rfl (iff_of_true ?_ ?_) (hinvoke ha)
    · rcases hstage with ⟨rfl, -⟩ | ⟨rfl, -⟩
      · exact complete_of_stage (by simp) (by simp)
      · exact complete_of_stage (by simp) (by simp)
    · exact complete_of_stage (by simp [hst]) (by simp [hst])
  | committed _ flag uuid result hor =>
    rcases hor with ⟨hst, -, -, rfl⟩ | ⟨hst, -, -, rfl⟩
    · exact hsame rfl rfl (iff_of_true
        (complete_of_stage (by simp) (by simp))
        (complete_of_stage (by simp [hst]) (by simp [hst]))) trivial
    · exact hsame rfl rfl (iff_of_true
        (complete_of_stage (by simp) (by simp))
        (complete_of_stage (by simp [hst]) (by simp [hst]))) trivial
  | commitRaised _ uuid hor =>
    rcases hor with ⟨hst, rfl⟩ | ⟨hst, rfl⟩
    · exact hsame rfl rfl (iff_of_true
        (complete_of_stage (by simp) (by simp))
        (complete_of_stage (by simp [hst]) (by simp [hst]))) trivial
    · exact hsame rfl rfl (iff_of_true
        (complete_of_stage (by simp) (by simp))
        (complete_of_stage (by simp [hst]) (by simp [hst]))) trivial
  | responded _ result messageId hst _ _ ha =>
    exact hsame rfl rfl (iff_of_true
      (complete_of_stage (by simp) (by simp))
      (complete_of_stage (by simp [hst]) (by simp [hst]))) (hinvoke ha)
  | skipped call rest hobs hq hmark =>
    refine hsame rfl rfl ?_ ?_
    · unfold Complete
      rcases hs.observing_stage hobs with ⟨hst, -⟩ | ⟨hst, -⟩
      · simp only [hst]
      · simp only [hst, hq]
        rw [List.filter_cons_of_neg (by simpa using hmark)]
        exact Iff.rfl
    · intro call' rest' hq' hfree
      rw [hq] at hq'
      cases hq'
      exact absurd hmark hfree
  | observed call rest o hobs _ hq hmark hstep =>
    obtain ⟨-, hids, -⟩ :=
      OrchestratorState.observedIds_observe hs.coherent hstep
    have hcomp := hs.complete_observed hnds hobs hq hmark o
    have halign : Aligned { s with
        queue := rest
        executor := { s.executor.markObserved call with
          orchestrator := o } }
        ↔ s.orch.observedIds = s.marks ∧ s.marks <+: s.callIds
          ∧ s.callIds[s.marks.length]? = some call.callId := by
      show o.observedIds = s.marks ++ [call.callId]
          ∧ s.marks ++ [call.callId] <+: s.callIds ↔ _
      rw [hids, prefix_concat_iff, List.append_left_inj]
    have hkeep : s.KeepsOrder .observeNext
        ↔ s.callIds[s.marks.length]? = some call.callId := by
      refine ⟨fun hk => hk call rest hq hmark, fun hk => ?_⟩
      intro call' rest' hq' _
      rw [hq] at hq'
      cases hq'
      exact hk
    refine ⟨fun hin => ?_, fun hin => ?_⟩
    · rw [hkeep]
      refine ⟨fun hin' => (halign.1 hin'.1).2.2, fun hk => ?_⟩
      exact ⟨halign.2 ⟨hin.1.1, hin.1.2, hk⟩, hcomp.2 hin.2⟩
    · obtain ⟨h1, h2, -⟩ := halign.1 hin.1
      exact ⟨⟨h1, h2⟩, hcomp.1 hin.2⟩
  | resolved r ck message envelope o hobs hp hlane hstep =>
    obtain ⟨hids, -, -⟩ :=
      OrchestratorState.observedIds_resolved hs.coherent hp hlane hstep
    refine hsame hids rfl Iff.rfl ?_
    intro envelope' hp'
    rw [hp] at hp'
    cases hp'
    exact hlane
  | observeRaised _ b message hobs hp ha hstep hwhy =>
    have hobs' : (s.setOrchestrator
        { s.orch with pending := none }).observing = true := hobs
    have hnot : ¬ Aligned ((s.setOrchestrator
        { s.orch with pending := none }).observeRaised message) := by
      rcases observeRaised_fields message hobs' with ⟨-, heq⟩ | ⟨-, heq⟩
      · rw [heq]
        exact hs.not_aligned_of_dropped hp (List.append_nil _) rfl
      · rw [heq]
        exact hs.not_aligned_of_dropped hp (List.append_nil _) rfl
    have hkeep : ¬ s.KeepsOrder a := by
      rcases hwhy with rfl | ⟨r, ck, envelope, rfl, hpe, hlane⟩
      · exact id
      · exact fun hk => hk envelope hpe hlane
    refine ⟨fun _ => iff_of_false (fun hin => hnot hin.1) hkeep,
      fun hin => absurd hin.1 hnot⟩
  | tool b o hfin hb hstep =>
    obtain ⟨hres, hpend, -⟩ := OrchestratorState.observed_of_task
      hs.coherent (task_observes_none hb)
      (OrchestratorState.effect_of_step hs.coherent hstep)
    refine hsame ?_ rfl Iff.rfl trivial
    show o.observedIds = _
    unfold OrchestratorState.observedIds
    rw [hres, hpend]
  | aborted reason => exact hsame rfl rfl Iff.rfl trivial
  | replayed hst hleft hrep =>
    have hok := (sound_step hs h).stage
    unfold StageOk at hok
    have hfin : s.beginFinalize.stage = .finalizing := rfl
    rw [hfin] at hok
    have hres : s.result.toolCalls = s.calls := hok.2
    have hmarks : s.beginFinalize.marks = s.marks :=
      settleTier_marks s.executor s.pendingToolUseClosed
    have horch : s.beginFinalize.orch = s.orch :=
      settleTier_orchestrator s.executor s.pendingToolUseClosed
    have halign : s.beginFinalize.Aligned ↔ s.Aligned :=
      hs.aligned_iff (by rw [horch]) hmarks (List.prefix_refl _)
    have hfree : s.Complete :=
      complete_of_stage (by simp [hst]) (by simp [hst])
    refine ⟨fun hin => ?_, fun hin => ⟨halign.1 hin.1, hfree⟩⟩
    have hcomp : s.beginFinalize.Complete ↔ s.KeepsOrder .replay := by
      unfold Complete
      simp only [hfin, hmarks]
      show s.marks ++ ((if _ then [] else s.result.toolCalls).filter
        fun c : ToolCall => c.callId ∉ s.marks).map _ = s.callIds ↔ (_ → _)
      by_cases htier : (s.executor.settleTier
          s.pendingToolUseClosed).effectiveTier = .fullStreaming
      · rw [if_pos htier]
        simp only [List.filter_nil, List.map_nil, List.append_nil, htier,
          forall_const]
        rw [← marks_eq_of_all hnds hin.1.2, hres]
        unfold callIds
        simp
      · rw [if_neg htier, hres]
        exact iff_of_true (filter_unmarked hnds hin.1.2)
          fun h => absurd h htier
    rw [← hcomp]
    exact ⟨fun hin' => hin'.2, fun hc => ⟨halign.2 hin.1, hc⟩⟩
  | gathered outs replayed hst hleft hq hfin =>
    refine hsame rfl rfl ?_ trivial
    unfold Complete
    simp only [hst, hq, List.filter_nil, List.map_nil, List.append_nil]
    exact Iff.rfl
  | left => exact hsame rfl rfl Iff.rfl trivial

-- ========== whole runs

variable {t : Attempt} {as : List AttemptAction}

theorem sound_of_run (hs : s.Sound) (hrun : attempt.run s as = some t) :
    t.Sound :=
  System.run_invariant (fun _ _ _ hu hstep => sound_step hu hstep) hs hrun

theorem callIds_of_run (hs : s.Sound) (hrun : attempt.run s as = some t) :
    s.callIds <+: t.callIds := by
  have hinv : t.Sound ∧ s.callIds <+: t.callIds :=
    System.run_invariant (I := fun u => u.Sound ∧ s.callIds <+: u.callIds)
      (fun u a u' hu hstep => ⟨(sound_grows hu.1 hstep).1,
        hu.2.trans (sound_grows hu.1 hstep).2⟩)
      ⟨hs, List.prefix_refl _⟩ hrun
  exact hinv.2

theorem distinct_of_visits (hs : s.Sound) (hrun : attempt.run s as = some t)
    (hnd : t.callIds.Nodup) {u : Attempt} (hu : attempt.Visits s as u) :
    u.callIds.Nodup := by
  obtain ⟨p, q, rfl, hp⟩ := hu
  obtain ⟨m, hm, hq⟩ := System.run_append_eq_some.1 hrun
  rw [hp] at hm
  cases hm
  exact (callIds_of_run (sound_of_run hs hp) hq).sublist.nodup hnd

/-- The calls are in order at the end exactly when every step kept the
order. -/
theorem inOrder_iff_takes (hs : s.Sound) (hin : s.InOrder)
    (hrun : attempt.run s as = some t) (hnd : t.callIds.Nodup) :
    t.InOrder ↔ ∀ u a u', attempt.Takes s as u a u' → u.KeepsOrder a := by
  have hiff := System.run_iff_takes_of_visits
    (A := fun u => u.Sound ∧ u.InOrder)
    (B := fun u => u.Sound ∧ ¬ u.InOrder)
    (C := fun u => u.callIds.Nodup) (G := KeepsOrder)
    (fun u a u' _ hnd' hu hstep hG => ⟨sound_step hu.1 hstep,
      ((inOrder_step hu.1 hstep hnd').1 hu.2).2 hG⟩)
    (fun u a u' _ hnd' hu hstep hG => ⟨sound_step hu.1 hstep, fun hin' =>
      hG (((inOrder_step hu.1 hstep hnd').1 hu.2).1 hin')⟩)
    (fun u a u' _ hnd' hu hstep => ⟨sound_step hu.1 hstep, fun hin' =>
      hu.2 ((inOrder_step hu.1 hstep hnd').2 hin')⟩)
    (fun u _ hu hnot => hnot.2 hu.2) ⟨hs, hin⟩
    (fun u hu => distinct_of_visits hs hrun hnd hu) hrun
  rw [← hiff]
  exact ⟨fun h => ⟨sound_of_run hs hrun, h⟩, fun h => h.2⟩

/-- What the orchestrator's own steps lose is lost: a property of it that
each of its steps keeps exactly under a condition, and none restores,
holds at the end exactly when every step of the attempt that is one of
the orchestrator's met the condition. -/
theorem orch_iff_takes {P : OrchestratorState → Prop}
    {G : OrchestratorState → Tools.Action → Prop}
    (hstep : ∀ o b o', o.Coherent → P o → orchestrator.step o b = some o' →
      (P o' ↔ G o b))
    (hback : ∀ o b o', o.Coherent → orchestrator.step o b = some o' →
      P o' → P o)
    (hs : s.Sound) (hP : P s.orch) (hrun : attempt.run s as = some t) :
    P t.orch ↔ ∀ u a u', attempt.Takes s as u a u' →
      ∀ b, u.toolAction a = some b → G u.orch b := by
  have hiff := System.run_iff_takes
    (A := fun u : Attempt => u.Sound ∧ P u.orch)
    (B := fun u : Attempt => u.Sound ∧ ¬ P u.orch)
    (G := fun u a => ∀ b, u.toolAction a = some b → G u.orch b)
    (fun u a u' hu hst hG => by
      refine ⟨sound_step hu.1 hst, ?_⟩
      rcases orch_step hu.1 hst with ⟨-, heq⟩ | ⟨b, hb, hb'⟩
      · rw [heq]
        exact hu.2
      · exact (hstep _ b _ hu.1.coherent hu.2 hb').2 (hG b hb))
    (fun u a u' hu hst hG => by
      refine ⟨sound_step hu.1 hst, fun hP' => hG fun b hb => ?_⟩
      rcases orch_step hu.1 hst with ⟨hnone, -⟩ | ⟨c, hc, hc'⟩
      · rw [hnone] at hb
        cases hb
      · rw [hc] at hb
        cases hb
        exact (hstep _ _ _ hu.1.coherent hu.2 hc').1 hP')
    (fun u a u' hu hst => by
      refine ⟨sound_step hu.1 hst, fun hP' => hu.2 ?_⟩
      rcases orch_step hu.1 hst with ⟨-, heq⟩ | ⟨b, -, hb'⟩
      · rwa [heq] at hP'
      · exact hback _ b _ hu.1.coherent hb' hP')
    (fun u hu hnot => hnot.2 hu.2) ⟨hs, hP⟩ hrun
  rw [← hiff]
  exact ⟨fun h => ⟨sound_of_run hs hrun, h⟩, fun h => h.2⟩

-- ======== the outcomes

theorem toolResultContent_ids {outs : List ToolOutcome}
    (hsorted : outs.Pairwise fun a b => a.replayIndex < b.replayIndex) :
    (toolResultContent outs).filterMap toolResultId?
      = outs.map (·.resultBlock.toolUseId) := by
  have hle : outs.Pairwise fun a b => a.replayIndex ≤ b.replayIndex :=
    hsorted.imp fun h => Nat.le_of_lt h
  unfold toolResultContent
  rw [hle.insertionSort_eq, List.filterMap_map, ← List.filterMap_eq_map]
  rfl

/-- Where the outcomes are those of the committed calls, no result was
lost and the calls were observed in order. -/
theorem Sound.recorded_of_ids (hs : s.Sound) {outs : List ToolOutcome}
    {replayed : OrchestratorState} (hst : s.stage = .finalized outs replayed)
    (hids : outs.map (·.resolvedCall.toolUseId) = s.callIds) :
    s.orch.Recorded ∧ s.InOrder := by
  have hok := hs.stage
  unfold StageOk at hok
  rw [hst] at hok
  obtain ⟨-, houts, hpend, hdone⟩ := hok
  have hobs : s.orch.observedIds
      = s.orch.resolvedCalls.map (·.toolUseId) := by
    unfold OrchestratorState.observedIds
    rw [hpend]
    exact List.append_nil _
  have hcall : ∀ o ∈ outs, o.resolvedCall ∈ s.orch.resolvedCalls
      ∧ s.orch.Settled o.resolvedCall := by
    intro o ho
    rw [houts] at ho
    obtain ⟨k, hk⟩ := OrchestratorState.mem_ordered.1 ho
    exact (hs.coherent.settled_of_outcome hk).2.2
  have hrec : s.orch.Recorded := by
    intro i task htask _
    have hmem := (hs.coherent.mem_of_task htask).1
    have hid : task.call.toolUseId ∈ s.callIds := by
      refine hs.marked _ (hs.observed.subset ?_)
      rw [hobs]
      exact List.mem_map_of_mem hmem
    rw [← hids] at hid
    obtain ⟨o, ho, heq⟩ := List.mem_map.1 hid
    obtain ⟨hmem', hset⟩ := hcall o ho
    -- distinct calls have distinct ids
    by_cases hcalls : o.resolvedCall = task.call
    · rw [← hcalls]
      exact hset
    · exact absurd heq (hs.coherent.call_ne hmem' hmem hcalls).2
  have hall : s.orch.ordered.map (·.resolvedCall) = s.orch.resolvedCalls :=
    (hs.coherent.complete_iff hdone).2 hrec
  have hres : s.orch.observedIds = s.callIds := by
    rw [hobs, ← hall, ← houts, List.map_map]
    exact hids
  have hmarks : s.orch.observedIds = s.marks := by
    refine hs.observed.eq_of_length_le ?_
    rw [hres]
    exact hs.marks_length
  have hcalls : s.marks = s.callIds := hmarks.symm.trans hres
  refine ⟨hrec, ⟨hmarks, hcalls ▸ List.prefix_refl _⟩, ?_⟩
  unfold Complete
  simp only [hst]
  exact hcalls

/-- The outcomes of a finalized attempt answer the committed calls exactly
when no result was lost or misaddressed and the calls were observed in
order. -/
theorem Sound.answers_iff (hs : s.Sound) {outs : List ToolOutcome}
    {replayed : OrchestratorState}
    (hst : s.stage = .finalized outs replayed) :
    s.AnswersCalls outs
      ↔ s.orch.Recorded ∧ s.orch.Addressed ∧ s.InOrder := by
  have hok := hs.stage
  unfold StageOk at hok
  rw [hst] at hok
  obtain ⟨hres, houts, hpend, hdone⟩ := hok
  have hcommitted : s.result.toolCalls.map (·.callId) = s.callIds := by
    rw [hres]
    rfl
  have hsorted : outs.Pairwise fun a b => a.replayIndex < b.replayIndex := by
    rw [houts]
    exact hs.coherent.ordered_sorted
  unfold AnswersCalls
  rw [toolResultContent_ids hsorted, hs.committed, hcommitted]
  refine ⟨fun h => ?_, fun h => ?_⟩
  · obtain ⟨hids, hblocks⟩ := h
    obtain ⟨hrec, hin⟩ := hs.recorded_of_ids hst hids
    refine ⟨hrec, ?_, hin⟩
    intro k o hk
    have ho : o ∈ outs := by
      rw [houts]
      exact OrchestratorState.mem_ordered.2 ⟨k, hk⟩
    rw [← hids] at hblocks
    exact List.map_inj_left.1 hblocks o ho
  · obtain ⟨hrec, hadd, hin⟩ := h
    have hall := (hs.coherent.complete_iff hdone).2 hrec
    have hids : outs.map (·.resolvedCall.toolUseId) = s.callIds := by
      have hcomp := hin.2
      unfold Complete at hcomp
      simp only [hst] at hcomp
      rw [← hcomp, ← hin.1.1]
      unfold OrchestratorState.observedIds
      rw [hpend, ← hall, ← houts, List.map_map]
      exact (List.append_nil _).symm
    refine ⟨hids, ?_⟩
    rw [← hids]
    refine List.map_inj_left.2 fun o ho => ?_
    rw [houts] at ho
    obtain ⟨k, hk⟩ := OrchestratorState.mem_ordered.1 ho
    exact hadd k o hk

theorem inOrder_init (capabilities : NormalizedModelCapabilities)
    (mode : ModelInvocationMode) (messageId : String) :
    (init capabilities mode messageId).InOrder := by
  refine ⟨⟨rfl, List.nil_prefix⟩, ?_⟩
  unfold init
  cases mode with
  | stream => exact trivial
  | bufferedCompletion => exact trivial

/-- Whatever the route, the stream or response and the tools: where an
attempt reaches the end of `finalize` with distinct calls, the outcomes
answer the committed calls exactly when every step of the run kept the
order of the calls and their results. -/
theorem finalized_answers_iff (capabilities : NormalizedModelCapabilities)
    (mode : ModelInvocationMode) (messageId : String)
    {outs : List ToolOutcome} {replayed : OrchestratorState}
    (hrun : attempt.run (init capabilities mode messageId) as = some t)
    (hst : t.stage = .finalized outs replayed)
    (hnd : (t.result.toolCalls.map (·.callId)).Nodup) :
    t.AnswersCalls outs
      ↔ ∀ u a u',
        attempt.Takes (init capabilities mode messageId) as u a u' →
        u.KeepsCalls a := by
  have hs := sound_init capabilities mode messageId
  have ht := sound_of_run hs hrun
  have hok := ht.stage
  unfold StageOk at hok
  rw [hst] at hok
  have hids : t.callIds.Nodup := by
    unfold callIds
    rw [← hok.1]
    exact hnd
  have hrec : t.orch.Recorded ↔ _ := orch_iff_takes
    (P := OrchestratorState.Recorded) (G := OrchestratorState.KeepsResult)
    (fun o b o' ho hP hstep => OrchestratorState.recorded_step ho hP
      (OrchestratorState.effect_of_step ho hstep))
    (fun o b o' ho hstep => OrchestratorState.lost_stays ho
      (OrchestratorState.effect_of_step ho hstep))
    hs (by intro i task h; simp [init] at h) hrun
  have hadd : t.orch.Addressed ↔ _ := orch_iff_takes
    (P := OrchestratorState.Addressed) (G := OrchestratorState.KeepsAddress)
    (fun o b o' ho hP hstep => OrchestratorState.addressed_step ho hP hstep)
    (fun o b o' ho hstep => OrchestratorState.addressed_back ho
      (OrchestratorState.effect_of_step ho hstep))
    hs (by intro k o h; cases h) hrun
  have hin := inOrder_iff_takes hs
    (inOrder_init capabilities mode messageId) hrun hids
  rw [ht.answers_iff hst, hrec, hadd, hin]
  refine ⟨fun h u a u' htake => ?_, fun h => ⟨?_, ?_, ?_⟩⟩
  · exact ⟨h.2.2 u a u' htake, fun b hb =>
      ⟨h.1 u a u' htake b hb, h.2.1 u a u' htake b hb⟩⟩
  · exact fun u a u' htake b hb => ((h u a u' htake).2 b hb).1
  · exact fun u a u' htake b hb => ((h u a u' htake).2 b hb).2
  · exact fun u a u' htake => (h u a u' htake).1

end Attempt

section FixedRuns

/-! A route whose calls come as deltas with a boundary, but whose model
does not stream: the executor is the full-streaming one, the response is
buffered. -/

def unstreamedRoute : NormalizedModelCapabilities :=
  { streamingToolCallDeltas := true, toolCallFinalizeBoundary := true
    supportsStreaming := false }

def bufferedCall : List AttemptAction :=
  [.responded [.toolUse "call-1" "write" (.mapping [])] none
      { stopReason := some "tool_use" },
    .replay, .gathered]

/-- The committed call gets no outcome: `finalize` returns nothing. -/
theorem buffered_call_unanswered :
    ∃ t replayed,
      attempt.run (Attempt.init unstreamedRoute
          (requestInvocationMode none none unstreamedRoute) "message-1")
        bufferedCall = some t
      ∧ t.stage = .finalized [] replayed
      ∧ (t.result.toolCalls.map (·.callId)).Nodup
      ∧ ¬ t.AnswersCalls [] := by
  refine ⟨_, _, rfl, rfl, List.nodup_singleton _, ?_⟩
  intro h
  have hids : ([] : List String) = ["call-1"] := h.1
  cases hids

def finishedCall : List AttemptAction :=
  [.responded [.toolUse "call-1" "write" (.mapping [])] none
      { stopReason := some "tool_use" },
    .replay, .observeNext, .resolved writeTool some "",
    .tool (.firstStep 0 some),
    .tool (.finish 0 { execute := .returns (.value (.str "ok")) } some),
    .gathered]

/-- A route whose executor reads the list of `finalize`, and what is said
of the end of its run. -/
theorem finalized_answers_iff_finished :
    ∃ t outs replayed,
      attempt.run (Attempt.init {} .bufferedCompletion "message-1")
        finishedCall = some t
      ∧ t.stage = .finalized outs replayed
      ∧ (t.AnswersCalls outs
        ↔ ∀ u a u', attempt.Takes
          (Attempt.init {} .bufferedCompletion "message-1")
          finishedCall u a u' → u.KeepsCalls a) := by
  have hrun : attempt.run (Attempt.init {} .bufferedCompletion "message-1")
      finishedCall = some _ := rfl
  refine ⟨_, _, _, hrun, rfl, ?_⟩
  exact Attempt.finalized_answers_iff {} .bufferedCompletion "message-1"
    hrun rfl (List.nodup_singleton _)

end FixedRuns

end WeaveRuntime.TurnEngine
