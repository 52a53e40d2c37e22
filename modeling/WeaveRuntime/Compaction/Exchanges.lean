/-
Compaction and tool exchanges.

The strategy cuts the messages at a position counted from the end and
looks at no block. A tool call before the position goes into the summary;
where its result stands after the position, the result stays without its
call, and the pairing repair of the next request drops it. So of messages
whose exchanges are complete (`Exchanged`), the messages returned have
complete exchanges exactly when the position is inside none of them
(`CutsExchange`).

# The marks

A system message places no call and no result, so the placed marks of
what is returned are those of the kept tail (`mem_toolMarks_compacted`),
and everything is said of the two parts of one trace.
-/
import WeaveRuntime.Compaction.Bounded
import WeaveRuntime.Messages.WellFormed

namespace WeaveRuntime.Compaction

open Lib.Pairing
open Messages
open Python

-- ========== statements

/-- Every tool call of an assistant message is answered by exactly one
later result in a user message, and no identifier is used for two
calls. -/
def Exchanged (messages : List RuntimeMessage) : Prop :=
  Complete (toolMarks messages)

/-- What is kept of the messages keeps their exchanges: a call with its
result, a result with its call. -/
structure KeepsExchanges (messages kept : List RuntimeMessage) : Prop where
  results : ∀ i, .ask true i ∈ toolMarks kept → Answered i (toolMarks kept)
  calls : ∀ i, .reply true i ∈ toolMarks kept →
    .ask true i ∈ toolMarks messages → .ask true i ∈ toolMarks kept

/-- The index of the first message that is kept, from the end. -/
def keptFrom (policy : CompactionPolicy) (messages : List RuntimeMessage) :
    Nat :=
  messages.length - policy.keepRecentMessages.toNat

/-- Some exchange has its call before the position and its result after
it. -/
def CutsExchange (policy : CompactionPolicy)
    (messages : List RuntimeMessage) : Prop :=
  Cut (toolMarks (messages.take (keptFrom policy messages)))
    (toolMarks (messages.drop (keptFrom policy messages)))

-- =========== the marks

theorem toolMarks_append (front back : List RuntimeMessage) :
    toolMarks (front ++ back) = toolMarks front ++ toolMarks back := by
  unfold toolMarks spread
  rw [List.flatMap_append]

theorem placed_of_system {messages : List RuntimeMessage}
    (h : ∀ m ∈ messages, m.role = .system) (i : String) :
    .ask true i ∉ toolMarks messages
      ∧ .reply true i ∉ toolMarks messages := by
  have hnone : ∀ mark ∈ toolMarks messages, ∀ j,
      mark ≠ .ask true j ∧ mark ≠ .reply true j := by
    intro mark hmark j
    unfold toolMarks spread at hmark
    obtain ⟨m, hm, hmark⟩ := List.mem_flatMap.1 hmark
    obtain ⟨b, -, hmark⟩ := List.mem_flatMap.1 hmark
    rw [h m hm] at hmark
    cases b with
    | toolUse toolUseId name input =>
      cases List.mem_singleton.1 hmark
      exact ⟨by simp, by simp⟩
    | toolResult toolUseId content isError =>
      cases List.mem_singleton.1 hmark
      exact ⟨by simp, by simp⟩
    | _ => cases hmark
  exact ⟨fun hmem => (hnone _ hmem i).1 rfl,
    fun hmem => (hnone _ hmem i).2 rfl⟩

section Cut

variable {policy : CompactionPolicy} {messages : List RuntimeMessage}

theorem preservedTail_eq
    (h : policy.keepRecentMessages.toNat < others messages) :
    preservedTail policy (splitPinnedPrefix messages).2
      = messages.drop (keptFrom policy messages) := by
  have hlength := leading_add_others messages
  have hsplit : (splitPinnedPrefix messages).1
      ++ (splitPinnedPrefix messages).2 = messages :=
    List.takeWhile_append_dropWhile
  unfold preservedTail keptFrom
  unfold others leading at *
  have hposition : messages.length - policy.keepRecentMessages.toNat
      = (splitPinnedPrefix messages).1.length
        + ((splitPinnedPrefix messages).2.length
          - min (splitPinnedPrefix messages).2.length
            policy.keepRecentMessages.toNat) := by
    omega
  rw [hposition]
  calc _ = ((splitPinnedPrefix messages).1
        ++ (splitPinnedPrefix messages).2).drop _ :=
        (List.drop_length_add_append _).symm
    _ = messages.drop _ := by rw [hsplit]

variable {draws : SummaryDraws} {trigger text : String}

theorem toolMarks_compacted
    (h : policy.keepRecentMessages.toNat < others messages) :
    toolMarks (summaryStep draws trigger text (splitPinnedPrefix messages).1
        (compactCandidates policy (splitPinnedPrefix messages).2)
        (preservedTail policy (splitPinnedPrefix messages).2)).messages
      = toolMarks (splitPinnedPrefix messages).1
        ++ toolMarks (messages.drop (keptFrom policy messages)) := by
  rw [preservedTail_eq h]
  exact toolMarks_append _ _

theorem pinned_system :
    ∀ m ∈ (splitPinnedPrefix messages).1, m.role = .system := by
  intro m hm
  have hrole := List.mem_takeWhile_imp hm
  simpa using hrole

theorem kept_of_ensure_eq {messages : List RuntimeMessage}
    (h : ensureToolResultPairing messages = messages)
    {pre post : List (Mark String)} {m : Mark String}
    (hsplit : toolMarks messages = pre ++ m :: post) : Kept pre post m := by
  refine kept_of_survivors (repairs_keepMark messages) ?_
  rw [← toolMarks_ensure, h, hsplit]

theorem toolMarks_pinned (hex : Exchanged messages)
    (hclean : ensureToolResultPairing messages = messages) :
    toolMarks (splitPinnedPrefix messages).1 = [] := by
  have hsplit : toolMarks messages
      = toolMarks (splitPinnedPrefix messages).1
        ++ toolMarks (splitPinnedPrefix messages).2 := by
    rw [← toolMarks_append]
    exact congrArg toolMarks List.takeWhile_append_dropWhile.symm
  refine List.eq_nil_iff_forall_not_mem.2 fun mark hmark => ?_
  have hwhole : mark ∈ toolMarks messages := by
    rw [hsplit]
    exact List.mem_append_left _ hmark
  obtain ⟨pre, post, heq⟩ := List.append_of_mem hwhole
  have hkept := kept_of_ensure_eq hclean heq
  cases mark with
  | ask placed i =>
    have hans : Answered i (toolMarks messages) := by
      rw [heq]
      exact hkept
    obtain rfl : placed = true :=
      hex.placed_of_asked hans.ask_mem hwhole
    exact (placed_of_system pinned_system i).1 hmark
  | reply placed i =>
    obtain ⟨rfl, -⟩ := hkept
    exact (placed_of_system pinned_system i).2 hmark

end Cut

-- =========== the claim

/-- **Exchanges.** The messages the strategy returns keep the exchanges
of its input exactly when its position is inside none of them; and where
the pairing repair changes nothing of the input, it changes nothing of
what is returned under the same condition only. -/
theorem exchanges_kept_iff (dumps : Payload → Option String)
    (draws : SummaryDraws) (policy : CompactionPolicy)
    (pressure : ContextPressure) (steps : List CompactionStepResult)
    {messages : List RuntimeMessage} {step : CompactionStepResult}
    (hex : Exchanged messages)
    (hstep : thresholdSummary dumps draws messages policy pressure steps
      = some (some step)) :
    (KeepsExchanges messages step.messages ↔ ¬ CutsExchange policy messages)
      ∧ (ensureToolResultPairing messages = messages →
        (ensureToolResultPairing step.messages = step.messages
          ↔ ¬ CutsExchange policy messages)) := by
  obtain ⟨hnone, -⟩ | ⟨hlonger, trigger, text, hsome⟩ :=
    thresholdSummary_cases hstep
  · cases hnone
  cases hsome
  have hmarks : toolMarks (summaryStep draws trigger text
      (splitPinnedPrefix messages).1
      (compactCandidates policy (splitPinnedPrefix messages).2)
      (preservedTail policy (splitPinnedPrefix messages).2)).messages
      = toolMarks (splitPinnedPrefix messages).1
        ++ toolMarks (messages.drop (keptFrom policy messages)) :=
    toolMarks_compacted hlonger
  have htail := preservedTail_eq hlonger
  have hwhole : toolMarks messages
      = toolMarks (messages.take (keptFrom policy messages))
        ++ toolMarks (messages.drop (keptFrom policy messages)) := by
    rw [← toolMarks_append, List.take_append_drop]
  have hpinned : ∀ i,
      .ask true i ∉ toolMarks (splitPinnedPrefix messages).1
        ∧ .reply true i ∉ toolMarks (splitPinnedPrefix messages).1 :=
    placed_of_system pinned_system
  have hmessages := hex
  unfold Exchanged at hex
  unfold CutsExchange
  rw [hwhole] at hex
  generalize hfront : toolMarks
    (messages.take (keptFrom policy messages)) = front at *
  generalize hback : toolMarks
    (messages.drop (keptFrom policy messages)) = back at *
  -- the placed marks of what is returned are those after the cut
  have hask : ∀ i, .ask true i ∈ toolMarks (splitPinnedPrefix messages).1
      ++ back ↔ .ask true i ∈ back := by
    intro i
    rw [List.mem_append, or_iff_right (hpinned i).1]
  have hreply : ∀ i, .reply true i ∈
      toolMarks (splitPinnedPrefix messages).1 ++ back
        ↔ .reply true i ∈ back := by
    intro i
    rw [List.mem_append, or_iff_right (hpinned i).2]
  refine ⟨?_, fun hclean => ⟨fun hsame hcut => ?_, fun hcut => ?_⟩⟩
  · rw [← hex.calls_back_iff]
    refine ⟨fun hkeeps i hr ha => ?_, fun hcalls => ⟨?_, ?_⟩⟩
    · have hkept := hkeeps.calls i
      rw [hmarks, hreply, hask, hwhole] at hkept
      exact hkept hr ha
    · intro i ha
      rw [hmarks] at ha ⊢
      exact (hex.answered_back ((hask i).1 ha)).mono
        (List.sublist_append_right _ _)
    · intro i hr ha
      rw [hmarks] at hr ⊢
      rw [hwhole] at ha
      exact (hask i).2 (hcalls i ((hreply i).1 hr) ha)
  · -- the result after the cut is kept, so its call is there
    obtain ⟨i, ha, hr⟩ := hcut
    obtain ⟨pre, post, heq⟩ := List.append_of_mem ((hreply i).2 hr)
    obtain ⟨-, hbefore, -⟩ := kept_of_ensure_eq hsame (hmarks.trans heq)
    refine hex.not_asked_twice ha ((hask i).1 ?_)
    rw [heq]
    exact List.mem_append_left _ hbefore
  · refine ensure_eq_self_of_kept ?_ ?_
    · intro pre m post hsplit
      rw [hmarks, toolMarks_pinned hmessages hclean,
        List.nil_append] at hsplit
      refine hex.kept_back (fun pre' m' post' hsplit' => ?_) hcut hsplit
      exact kept_of_ensure_eq hclean (hwhole.trans hsplit')
    · intro m hm
      have hblocks : ∀ n ∈ messages, n.content ≠ [] := by
        intro n hn
        rw [← hclean] at hn
        exact (mem_ensure hn).1
      rw [htail] at hm
      obtain hm | hm := List.mem_append.1 hm
      · exact hblocks m (List.takeWhile_sublist _ |>.subset hm)
      · obtain rfl | hm := List.mem_cons.1 hm
        · exact List.cons_ne_nil _ _
        · exact hblocks m (List.mem_of_mem_drop hm)

-- ======== one exchange

/-- A request, a call and its result. -/
def exchangeMessages : List RuntimeMessage :=
  [{ userMessage "u1" with content := [.text "go"] },
    { userMessage "a1" with
      role := .assistant
      content := [.toolUse "call_1" "read" (.mapping [])] },
    { userMessage "u2" with
      content := [.toolResult "call_1" (.mapping []) false] }]

/-- Compaction on demand, the last messages kept. -/
def forcedPolicy (keepRecentMessages : Int) : CompactionPolicy :=
  { smallPolicy with force := true, keepRecentMessages }

def calmPressure : ContextPressure where
  messageCount := 3
  characterCount := 2
  maxMessageCount := some 2
  maxCharacters := none
  messageLimitExceeded := true
  characterLimitExceeded := false
  triggered := true

def fixedDraws : SummaryDraws := ⟨"s1", "b1", newYear⟩

theorem exchanged_exchangeMessages : Exchanged exchangeMessages := by
  have hmarks : toolMarks exchangeMessages
      = [.ask true "call_1", .reply true "call_1"] := rfl
  unfold Exchanged
  rw [hmarks]
  refine ⟨?_, ?_⟩
  · intro i
    by_cases hi : "call_1" = i
    · simp [hi]
    · simp [hi]
  · intro pre i post heq
    cases pre with
    | nil =>
      cases heq
      rfl
    | cons m pre =>
      obtain ⟨-, heq⟩ := List.cons_eq_cons.1 heq
      cases pre with
      | nil => cases heq
      | cons m' pre =>
        obtain ⟨-, heq⟩ := List.cons_eq_cons.1 heq
        cases pre with
        | nil => cases heq
        | cons m'' pre => cases heq

theorem exchanges_kept_two : ∃ step,
    thresholdSummary (fun _ => none) fixedDraws exchangeMessages
      (forcedPolicy 2) calmPressure [] = some (some step)
    ∧ ensureToolResultPairing step.messages = step.messages := by
  refine ⟨_, rfl, ?_⟩
  have hcut : ¬ CutsExchange (forcedPolicy 2) exchangeMessages := by
    intro hcut
    obtain ⟨i, hask, -⟩ := hcut
    exact List.not_mem_nil hask
  exact ((exchanges_kept_iff (fun _ => none) fixedDraws (forcedPolicy 2)
    calmPressure [] exchanged_exchangeMessages rfl).2 rfl).2 hcut

/-- One message is kept: the result without its call, which the repair
drops. -/
theorem exchange_split_by_compaction : ∃ step,
    thresholdSummary (fun _ => none) fixedDraws exchangeMessages
      (forcedPolicy 1) calmPressure [] = some (some step)
    ∧ Exchanged exchangeMessages
    ∧ .reply true "call_1" ∈ toolMarks step.messages
    ∧ .ask true "call_1" ∉ toolMarks step.messages
    ∧ "u2" ∈ step.boundary.preservedMessageIds
    ∧ (ensureToolResultPairing step.messages).map (·.messageId) = ["s1"] := by
  refine ⟨_, rfl, exchanged_exchangeMessages, ?_, ?_, ?_, rfl⟩
  · decide
  · decide
  · decide

end WeaveRuntime.Compaction
