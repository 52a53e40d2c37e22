/-
How large a compacted context stays.

A compaction leaves the leading system messages, its summary and the
recent tail. The summary is a system message, and it stands right after
the leading ones: to the next compaction it is one of them
(`leading_of_applied`), and no later one takes it away. So the bound the
first compaction meets is met for as long as the summaries piled up in
front leave room for the tail (`prepareTurn_length`), and no longer.
-/
import WeaveRuntime.Compaction.Manager
import WeaveRuntime.Lib.System

namespace WeaveRuntime.Compaction

open Lib Python Messages

-- ==== the summary text

theorem append_ne_empty {s t : String} (h : s ≠ "") : s ++ t ≠ "" := by
  intro hempty
  have hlist := congrArg String.toList hempty
  rw [String.toList_append] at hlist
  exact h (String.toList_inj.1 (List.append_eq_nil_iff.1 hlist).1)

theorem pyJoin_ne_empty {sep item : String} {items : List String}
    (h : item ≠ "") : pyJoin sep (item :: items) ≠ "" := by
  cases items with
  | nil => exact h
  | cons next items => exact append_ne_empty h

theorem summarizeMessage_ne_empty {dumps : Payload → Option String}
    {width : Int} {m : RuntimeMessage} {line : String}
    (h : summarizeMessage dumps width m = some line) : line ≠ "" := by
  unfold summarizeMessage at h
  rw [Option.bind_eq_bind, Option.bind_eq_some_iff] at h
  obtain ⟨text, -, hline⟩ := h
  cases hline
  exact append_ne_empty (by decide)

theorem summarizeMessages_ne_empty {dumps : Payload → Option String}
    {policy : CompactionPolicy} {messages : List RuntimeMessage}
    {text : String} (hne : messages ≠ [])
    (h : summarizeMessages dumps policy messages = some text) :
    text ≠ "" := by
  unfold summarizeMessages at h
  rw [Option.bind_eq_bind, Option.bind_eq_some_iff] at h
  obtain ⟨lines, hlines, htext⟩ := h
  cases htext
  cases messages with
  | nil => exact absurd rfl hne
  | cons m ms =>
    rw [summaryLines, Option.bind_eq_bind,
      Option.bind_eq_some_iff] at hlines
    obtain ⟨line, hline, hrest⟩ := hlines
    have hfirst : line ≠ "" := summarizeMessage_ne_empty hline
    have hcons : ∃ rest, lines = line :: rest := by
      split at hrest
      · cases hrest
        exact ⟨_, rfl⟩
      · rw [Option.bind_eq_bind, Option.bind_eq_some_iff] at hrest
        obtain ⟨rest, -, hrest⟩ := hrest
        cases hrest
        exact ⟨rest, rfl⟩
    obtain ⟨rest, rfl⟩ := hcons
    rw [List.filter_cons_of_pos (by simpa using hfirst)]
    exact pyJoin_ne_empty hfirst

-- ======== one strategy

/-- The number of leading system messages. -/
def leading (messages : List RuntimeMessage) : Nat :=
  (splitPinnedPrefix messages).1.length

/-- The number of messages after the leading system messages. -/
def others (messages : List RuntimeMessage) : Nat :=
  (splitPinnedPrefix messages).2.length

theorem leading_add_others (messages : List RuntimeMessage) :
    leading messages + others messages = messages.length := by
  unfold leading others splitPinnedPrefix
  rw [← List.length_append, List.takeWhile_append_dropWhile]

section Strategy

variable {dumps : Payload → Option String} {draws : SummaryDraws}
  {policy : CompactionPolicy} {messages : List RuntimeMessage}

theorem length_compactCandidates (remaining : List RuntimeMessage) :
    (compactCandidates policy remaining).length
      = remaining.length - policy.keepRecentMessages.toNat := by
  unfold compactCandidates
  rw [List.length_take]
  omega

theorem length_preservedTail (remaining : List RuntimeMessage) :
    (preservedTail policy remaining).length
      = min remaining.length policy.keepRecentMessages.toNat := by
  unfold preservedTail
  rw [List.length_drop]
  omega

/-- What the default strategy does: nothing when it is not asked to or
when the others all stay, else the leading messages, a summary and the
tail. -/
theorem thresholdSummary_cases {pressure : ContextPressure}
    {steps : List CompactionStepResult}
    {outcome : Option CompactionStepResult}
    (h : thresholdSummary dumps draws messages policy pressure steps
      = some outcome) :
    (outcome = none ∧ (policy.enabled = false
        ∨ (policy.force || pressure.triggered) = false
        ∨ others messages ≤ policy.keepRecentMessages.toNat))
      ∨ (policy.keepRecentMessages.toNat < others messages
        ∧ ∃ trigger text, outcome = some (summaryStep draws trigger text
          (splitPinnedPrefix messages).1
          (compactCandidates policy (splitPinnedPrefix messages).2)
          (preservedTail policy (splitPinnedPrefix messages).2))) := by
  unfold thresholdSummary at h
  split at h
  · next hoff =>
    cases h
    exact Or.inl ⟨rfl, Or.inl (by simpa using hoff)⟩
  · split at h
    · next hcalm =>
      cases h
      exact Or.inl ⟨rfl, Or.inr (Or.inl (by simpa using hcalm))⟩
    · have hlength : (compactCandidates policy
          (splitPinnedPrefix messages).2).length = _ :=
        length_compactCandidates (splitPinnedPrefix messages).2
      simp only at h
      split at h
      · next hnone =>
        cases h
        refine Or.inl ⟨rfl, Or.inr (Or.inr ?_)⟩
        rw [List.isEmpty_iff.1 hnone] at hlength
        unfold others
        simp only [List.length_nil] at hlength
        omega
      · next hsome =>
        rw [Option.bind_eq_bind, Option.bind_eq_some_iff] at h
        obtain ⟨text, htext, h⟩ := h
        have hne : compactCandidates policy (splitPinnedPrefix messages).2
            ≠ [] := fun hnil => hsome (List.isEmpty_iff.2 hnil)
        rw [if_neg (summarizeMessages_ne_empty hne htext)] at h
        refine Or.inr ⟨?_, _, text, (Option.some.inj h).symm⟩
        have hpos := List.length_pos_of_ne_nil hne
        unfold others
        omega

theorem prepareTurn_cases {r : CompactionResult}
    (h : prepareTurn dumps [thresholdSummary dumps draws] policy messages
      = some r) :
    ∃ pressure, evaluateContextPressure dumps messages policy = some pressure
      ∧ ((thresholdSummary dumps draws messages policy pressure [] = some none
          ∧ r.messages = messages ∧ r.steps = [])
        ∨ ∃ step, thresholdSummary dumps draws messages policy pressure []
            = some (some step) ∧ r.messages = step.messages
            ∧ r.steps = [step]) := by
  unfold prepareTurn at h
  rw [Option.bind_eq_bind, Option.bind_eq_some_iff] at h
  obtain ⟨pressure, hpressure, h⟩ := h
  rw [Option.bind_eq_bind, Option.bind_eq_some_iff] at h
  obtain ⟨result, hresult, h⟩ := h
  rw [runStrategies, Option.bind_eq_bind, Option.bind_eq_some_iff] at hresult
  obtain ⟨outcome, houtcome, hresult⟩ := hresult
  refine ⟨pressure, hpressure, ?_⟩
  cases outcome with
  | none =>
    cases hresult
    cases h
    exact Or.inl ⟨houtcome, rfl, rfl⟩
  | some step =>
    simp only [Option.bind_eq_bind, Option.bind_eq_some_iff] at hresult
    obtain ⟨next, -, hresult⟩ := hresult
    cases hresult
    cases h
    exact Or.inr ⟨step, houtcome, rfl, rfl⟩

theorem length_summaryStep {trigger text : String}
    {pinned candidates tail : List RuntimeMessage} :
    (summaryStep draws trigger text pinned candidates tail).messages.length
      = pinned.length + tail.length + 1 := by
  show (pinned ++ _ :: tail).length = _
  rw [List.length_append, List.length_cons, Nat.add_assoc]

/-- A context under pressure is left with its leading system messages and
at most one more than the recent ones. -/
theorem prepareTurn_length {r : CompactionResult} {limit : Int}
    (henabled : policy.enabled = true)
    (hlimit : policy.maxMessageCount = some limit)
    (h : prepareTurn dumps [thresholdSummary dumps draws] policy messages
      = some r) :
    r.messages.length = leading messages
        + min (others messages) (policy.keepRecentMessages.toNat + 1)
      ∨ (r.messages.length = messages.length ∧ messages.length ≤ limit) := by
  obtain ⟨pressure, hpressure, h⟩ := prepareTurn_cases h
  have hall := leading_add_others messages
  rcases h with ⟨hnone, hsame, -⟩ | ⟨step, hstep, hsame, -⟩
  · rw [hsame]
    rcases thresholdSummary_cases hnone with ⟨-, hwhy⟩ | ⟨-, _, _, hsome⟩
    · rcases hwhy with hoff | hcalm | hfew
      · rw [henabled] at hoff
        cases hoff
      · -- no pressure: the messages are within the limit
        refine Or.inr ⟨rfl, ?_⟩
        unfold evaluateContextPressure at hpressure
        rw [Option.bind_eq_bind, Option.bind_eq_some_iff] at hpressure
        obtain ⟨sizes, -, hpressure⟩ := hpressure
        cases hpressure
        simp only [Bool.or_eq_false_iff, hlimit, exceeds,
          decide_eq_false_iff_not] at hcalm
        omega
      · left
        omega
    · cases hsome
  · rw [hsame]
    rcases thresholdSummary_cases hstep with ⟨hnone, -⟩ | ⟨hmany, hsome⟩
    · cases hnone
    · obtain ⟨trigger, text, heq⟩ := hsome
      cases heq
      rw [length_summaryStep, length_preservedTail]
      unfold leading others at *
      left
      omega

end Strategy

-- =============== a run

/-- A turn: what is appended, none of it a system message, and what its
compaction draws. -/
structure Turn where
  appended : List RuntimeMessage
  nonSystem : ∀ m ∈ appended, m.role ≠ .system
  draws : SummaryDraws

/-- Turns over the messages the last one returned. -/
def turnSystem (dumps : Payload → Option String) (policy : CompactionPolicy) :
    System (List RuntimeMessage) Turn where
  step messages turn :=
    (prepareTurn dumps [thresholdSummary dumps turn.draws] policy
      (messages ++ turn.appended)).map CompactionResult.messages

/-- Over a run of turns the messages stay within the larger of the limit
and what the first compaction leaves, exactly when at every call the
leading system messages leave room for the recent ones and one more. -/
theorem compaction_bounded_iff (dumps : Payload → Option String)
    (policy : CompactionPolicy) (henabled : policy.enabled = true)
    (limit : Int) (hlimit : policy.maxMessageCount = some limit)
    (initial : List RuntimeMessage) (turns : List Turn) :
    (∀ s turn s', (turnSystem dumps policy).Takes initial turns s turn s' →
        (s'.length : Int) ≤ max limit
          (leading initial + policy.keepRecentMessages.toNat + 1))
      ↔ ∀ s turn s', (turnSystem dumps policy).Takes initial turns s turn s' →
        ((leading (s ++ turn.appended)
            + min (others (s ++ turn.appended))
              (policy.keepRecentMessages.toNat + 1) : Nat) : Int)
          ≤ max limit
            (leading initial + policy.keepRecentMessages.toNat + 1) := by
  have hstep : ∀ s turn s',
      (turnSystem dumps policy).Takes initial turns s turn s' →
      ((s'.length : Int) ≤ max limit
          (leading initial + policy.keepRecentMessages.toNat + 1)
        ↔ ((leading (s ++ turn.appended)
            + min (others (s ++ turn.appended))
              (policy.keepRecentMessages.toNat + 1) : Nat) : Int)
          ≤ max limit
            (leading initial + policy.keepRecentMessages.toNat + 1)) := by
    intro s turn s' htake
    obtain ⟨p, q, -, -, hs⟩ := htake
    obtain ⟨r, hr, rfl⟩ := Option.map_eq_some_iff.1 hs
    have hall := leading_add_others (s ++ turn.appended)
    rcases prepareTurn_length henabled hlimit hr with hlength | hsmall
    · rw [hlength]
    · obtain ⟨hlength, hle⟩ := hsmall
      rw [hlength]
      refine iff_of_true ?_ ?_
      · omega
      · omega
  refine ⟨fun hall s turn s' htake => ?_, fun hall s turn s' htake => ?_⟩
  · exact (hstep s turn s' htake).1 (hall s turn s' htake)
  · exact (hstep s turn s' htake).2 (hall s turn s' htake)

-- ==== summaries that pile up

/-- At most two messages, the last one kept. -/
def smallPolicy : CompactionPolicy where
  enabled := true
  force := false
  maxMessageCount := some 2
  maxCharacters := none
  keepRecentMessages := 1
  summaryLineLimit := 6
  summaryLineWidth := 120

def userMessage (messageId : String) : RuntimeMessage where
  messageId := messageId
  role := .user
  content := [.text "hi"]
  createdAt := newYear
  attachments := []
  metadata := []

def userTurn (ids : List String) (summaryId : String) : Turn where
  appended := ids.map userMessage
  nonSystem := by
    intro m hm
    obtain ⟨messageId, -, rfl⟩ := List.mem_map.1 hm
    exact MessageRole.noConfusion
  draws := ⟨summaryId, summaryId ++ "-boundary", (userMessage "").createdAt⟩

theorem compaction_bounded_userTurn :
    (∀ s turn s', (turnSystem (fun _ => none) smallPolicy).Takes []
        [userTurn ["a", "b", "c"] "s1"] s turn s' →
        (s'.length : Int) ≤ 2)
      ↔ ∀ s turn s', (turnSystem (fun _ => none) smallPolicy).Takes []
        [userTurn ["a", "b", "c"] "s1"] s turn s' →
        ((leading (s ++ turn.appended)
          + min (others (s ++ turn.appended)) 2 : Nat) : Int) ≤ 2 :=
  compaction_bounded_iff (fun _ => none) smallPolicy rfl 2 rfl []
    [userTurn ["a", "b", "c"] "s1"]

/-- The second compaction keeps the summary of the first, and is one
message over. -/
theorem compaction_unbounded :
    ¬ ∀ s turn s', (turnSystem (fun _ => none) smallPolicy).Takes []
      [userTurn ["a", "b", "c"] "s1", userTurn ["d", "e"] "s2"] s turn s' →
      (s'.length : Int) ≤ max 2 (leading []
        + smallPolicy.keepRecentMessages.toNat + 1) := by
  intro hall
  have hover := hall _ (userTurn ["d", "e"] "s2") _
    ⟨[userTurn ["a", "b", "c"] "s1"], [], rfl, rfl, rfl⟩
  exact absurd hover (by decide)

end WeaveRuntime.Compaction
