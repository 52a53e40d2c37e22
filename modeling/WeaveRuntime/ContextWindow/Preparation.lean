/-
Which messages a prepared turn accounts for.

`prepare` runs the passes one after the other on the active messages, and
beside them keeps what is to become the transcript: the messages of the
last pass that had an effect, and those of the compaction where one was
applied. The compaction works on the PROJECTED messages, so what the
projection left out of the view is then out of the transcript too.

# How it is read

Every pass shrinks the list: its messages are earlier ones with some
blocks gone and tool results rewritten (`Shrinks`), and a message is
unchanged up to its tool results exactly when it has lost no block
(`outline_eq_of_length`). So the messages are accounted for exactly when no
pass on the way to the transcript drops a message or a block
(`prepared_accounts_iff`), blocks of messages that the compaction
summarises apart.
-/
import WeaveRuntime.ContextWindow.Passes
import WeaveRuntime.Compaction.Bounded
import WeaveRuntime.Messages.WellFormed

namespace WeaveRuntime.ContextWindow

open Lib Python Messages
open Jobs (Fields setField getField)
open Compaction

-- ============= prepare

/-- What `prepare` works with: the transcript store, the context window
hook, the projection limit, the resolved compaction policy, and what the
compaction needs. -/
structure PrepareConfig (σ : Type) where
  transcriptStore : Option (ArtifactStore σ)
  state : σ
  /-- the plan the hook returns for the active messages, and nothing where
  it fails the preparation -/
  contextWindowHook : List RuntimeMessage → Option (Option ContextWindowPlan)
  projectionMaxMessages : Option Int
  policy : CompactionPolicy
  dumps : Payload → Option String
  draws : SummaryDraws

/-- The messages after each pass, and whether the first two had effects. -/
structure Passes where
  resolved : List RuntimeMessage
  resolvedEffects : List EffectKind
  planned : List RuntimeMessage
  plannedEffects : List EffectKind
  projected : List RuntimeMessage
  compaction : CompactionResult

structure PreparedContext where
  activeMessages : List RuntimeMessage
  transcriptMessages : Option (List RuntimeMessage)
  compaction : CompactionResult

section Prepare

variable {σ : Type} (c : PrepareConfig σ) (messages : List RuntimeMessage)

/-- The context window pass, which asks the hook where there is a
candidate. -/
def planPass (resolved : List RuntimeMessage) :
    Option (List RuntimeMessage × List EffectKind) :=
  if (collectContextWindowCandidates resolved).isEmpty then
    some (resolved, [])
  else do
    match ← c.contextWindowHook resolved with
    | none => return (resolved, [])
    | some plan =>
      let (planned, effects, _) ←
        applyContextWindowPlan c.transcriptStore c.state plan resolved
      return (planned, effects)

/-- The passes of `prepare`, with the default compaction manager. -/
def runPasses : Option Passes := do
  let (resolved, resolvedEffects) ←
    resolveSpilloverReferences c.transcriptStore c.state messages
  let (planned, plannedEffects) ← planPass c resolved
  let projected := applyProjectionPass c.projectionMaxMessages planned
  let compaction ← prepareTurn c.dumps [thresholdSummary c.dumps c.draws]
    c.policy projected
  return { resolved, resolvedEffects, planned, plannedEffects, projected,
           compaction }

end Prepare

def Passes.prepared (p : Passes) : PreparedContext where
  activeMessages :=
    if p.compaction.applied then p.compaction.messages else p.projected
  transcriptMessages :=
    if p.compaction.applied then some p.compaction.messages
    else if !p.plannedEffects.isEmpty then some p.planned
    else if !p.resolvedEffects.isEmpty then some p.resolved
    else none
  compaction := p.compaction

/-- `DefaultContextControlPlane.prepare`; nothing where it raises. -/
def prepare {σ : Type} (c : PrepareConfig σ)
    (messages : List RuntimeMessage) : Option PreparedContext :=
  (runPasses c messages).map Passes.prepared

-- ======= the statement

def blockOutline : ContentBlock → ContentBlock
  | .toolResult toolUseId _ isError =>
    .toolResult toolUseId (.scalar .none) isError
  | block => block

/-- A message without what a pass may rewrite: the contents of its tool
results, and the metadata about them. -/
def outline (m : RuntimeMessage) : RuntimeMessage :=
  { m with
    content := m.content.map blockOutline
    metadata := m.metadata.filter fun e => e.1 ≠ .str "tool_results" }

def frame (m : RuntimeMessage) : RuntimeMessage :=
  { m with
    content := []
    metadata := m.metadata.filter fun e => e.1 ≠ .str "tool_results" }

def summarizedIds (compaction : CompactionResult) : List String :=
  (compaction.boundary.map CompactionBoundary.sourceMessageIds).getD []

/-- Each message is in the transcript, unchanged up to tool results, or
summarised. -/
def Accounted (messages transcript : List RuntimeMessage)
    (summarized : List String) : Prop :=
  ∀ m ∈ messages, m.messageId ∈ summarized
    ∨ ∃ t ∈ transcript, outline t = outline m

/-- A pass drops no message, and no block but of summarised messages. -/
def Keeps (summarized : List String) (before after : List RuntimeMessage) :
    Prop :=
  ∀ m ∈ before, ∃ m' ∈ after, m'.messageId = m.messageId
    ∧ (m.messageId ∈ summarized ∨ m'.content.length = m.content.length)

/-- No pass whose result becomes durable loses anything. -/
structure Passes.LosesNothing (p : Passes) (messages : List RuntimeMessage) :
    Prop where
  resolving : Keeps (summarizedIds p.compaction) messages p.resolved
  planning : p.compaction.applied = true ∨ p.plannedEffects ≠ [] →
    Keeps (summarizedIds p.compaction) p.resolved p.planned
  projecting : p.compaction.applied = true →
    Keeps (summarizedIds p.compaction) p.planned p.projected

-- ======== what shrinks

/-- A message with some blocks of another, whose tool results it may have
rewritten. -/
structure Reduces (m m' : RuntimeMessage) : Prop where
  frame : frame m' = frame m
  blocks : (m'.content.map blockOutline).Sublist (m.content.map blockOutline)

theorem Reduces.refl (m : RuntimeMessage) : Reduces m m :=
  ⟨rfl, List.Sublist.refl _⟩

variable {after before l : List RuntimeMessage} {m m' : RuntimeMessage}
  {messages n resolved : List RuntimeMessage}

theorem Reduces.trans {l n : RuntimeMessage} (h : Reduces l m)
    (h' : Reduces m n) : Reduces l n :=
  ⟨h'.frame.trans h.frame, h'.blocks.trans h.blocks⟩

theorem Reduces.messageId (h : Reduces m m') :
    m'.messageId = m.messageId := by
  have hid := congrArg RuntimeMessage.messageId h.frame
  exact hid

theorem Reduces.length_le (h : Reduces m m') :
    m'.content.length ≤ m.content.length := by
  have hlength := h.blocks.length_le
  rwa [List.length_map, List.length_map] at hlength

theorem outline_eq (hframe : frame m' = frame m)
    (hblocks : m'.content.map blockOutline = m.content.map blockOutline) :
    outline m' = outline m := by
  unfold frame at hframe
  unfold outline
  simp only [RuntimeMessage.mk.injEq] at hframe ⊢
  exact ⟨hframe.1, hframe.2.1, hblocks, hframe.2.2.2.1, hframe.2.2.2.2.1,
    hframe.2.2.2.2.2⟩

/-- A message that has lost no block is unchanged up to its tool results. -/
theorem Reduces.outline_eq_of_length (h : Reduces m m')
    (hlength : m'.content.length = m.content.length) :
    outline m' = outline m :=
  outline_eq h.frame (h.blocks.eq_of_length (by
    rw [List.length_map, List.length_map, hlength]))

/-- The messages of one list are reduced messages of another, in order. -/
structure Shrinks (before after : List RuntimeMessage) : Prop where
  ids : (after.map RuntimeMessage.messageId).Sublist
    (before.map RuntimeMessage.messageId)
  reduces : ∀ m' ∈ after, ∃ m ∈ before, Reduces m m'

theorem Shrinks.refl (messages : List RuntimeMessage) :
    Shrinks messages messages :=
  ⟨List.Sublist.refl _, fun m hm => ⟨m, hm, Reduces.refl m⟩⟩

theorem Shrinks.trans {m : List RuntimeMessage} (h : Shrinks l m)
    (h' : Shrinks m n) : Shrinks l n := by
  refine ⟨h'.ids.trans h.ids, fun c hc => ?_⟩
  obtain ⟨b, hb, hbc⟩ := h'.reduces c hc
  obtain ⟨a, ha, hab⟩ := h.reduces b hb
  exact ⟨a, ha, hab.trans hbc⟩

-- ========== the passes

theorem shrinks_filterMap {f : RuntimeMessage × Nat → Option RuntimeMessage}
    (hf : ∀ m i m', f (m, i) = some m' → Reduces m m')
    (messages : List RuntimeMessage) (n : Nat) :
    Shrinks messages ((messages.zipIdx n).filterMap f) := by
  induction messages generalizing n with
  | nil => exact Shrinks.refl []
  | cons m ms ih =>
    rw [List.zipIdx_cons, List.filterMap_cons]
    obtain ⟨hids, hreduces⟩ := ih (n + 1)
    have hrest : ∀ m' ∈ (ms.zipIdx (n + 1)).filterMap f,
        ∃ b ∈ m :: ms, Reduces b m' := by
      intro m' hm'
      obtain ⟨b, hb, hred⟩ := hreduces m' hm'
      exact ⟨b, List.mem_cons_of_mem _ hb, hred⟩
    cases hm : f (m, n) with
    | none => exact ⟨hids.cons _, hrest⟩
    | some m' =>
      have hred := hf m n m' hm
      refine ⟨?_, fun c hc => ?_⟩
      · rw [List.map_cons, List.map_cons, hred.messageId]
        exact hids.cons_cons _
      · rcases List.mem_cons.1 hc with rfl | hc
        · exact ⟨m, List.mem_cons_self .., hred⟩
        · exact hrest c hc

theorem shrinks_ensureToolResultPairing (messages : List RuntimeMessage) :
    Shrinks messages (ensureToolResultPairing messages) := by
  refine shrinks_filterMap (fun m i m' h => ?_) messages 0
  unfold repairMessage at h
  split at h
  · cases h
  · cases h
    refine ⟨rfl, List.Sublist.map _ ?_⟩
    have hsub := (List.filter_sublist (l := m.content.zipIdx)
      (p := fun slot => keepBlock (observeMessages messages) (i, slot.2)
        slot.1)).map Prod.fst
    rwa [List.zipIdx_map_fst] at hsub

theorem shrinks_of_sublist (h : after.Sublist before) :
    Shrinks before after :=
  ⟨h.map _, fun m hm => ⟨m, h.subset hm, Reduces.refl m⟩⟩

theorem shrinks_applyProjectionPass (limit : Option Int)
    (messages : List RuntimeMessage) :
    Shrinks messages (applyProjectionPass limit messages) := by
  unfold applyProjectionPass
  cases limit with
  | none => exact Shrinks.refl messages
  | some limit =>
    dsimp only
    split
    · exact Shrinks.refl messages
    · split
      · exact Shrinks.refl messages
      · split
        · refine Shrinks.trans (shrinks_of_sublist ?_)
            (shrinks_ensureToolResultPairing _)
          unfold selectedMessages
          have hsub := (List.filter_sublist (l := messages.zipIdx)
            (p := fun entry => entry.1.role = .system
              || requiresProjectionPin entry.1
              || entry.2 = latestUserIndex messages
              || decide (max ((messages.takeWhile fun m =>
                m.role = .system).length : Int)
                (messages.length - limit) ≤ (entry.2 : Int)))).map Prod.fst
          rwa [List.zipIdx_map_fst] at hsub
        · exact Shrinks.refl messages

theorem filter_setField (fields : Fields) (key : PyKey) (value : PyVal) :
    (setField fields key value).filter (fun e => e.1 ≠ key)
      = fields.filter fun e => e.1 ≠ key := by
  induction fields with
  | nil => simp [setField]
  | cons e fields ih =>
    obtain ⟨k, v⟩ := e
    unfold setField
    by_cases hk : k = key
    · simp [hk]
    · rw [if_neg hk, List.filter_cons, List.filter_cons, ih]

theorem frame_rewriteMessage (m : RuntimeMessage) (blocks : List ContentBlock)
    (entries : List PyVal) (table : Dict String Fields) :
    frame (rewriteMessage m blocks entries table) = frame m := by
  unfold frame rewriteMessage
  dsimp only
  rw [filter_setField]

section Resolution

variable {σ : Type} {store : ArtifactStore σ} {state : σ}

theorem resolveBlock_outline {w w' : Rewriting} {block : ContentBlock}
    (h : resolveBlock store state w block = some w') :
    w'.blocks.map blockOutline
      = w.blocks.map blockOutline ++ [blockOutline block] := by
  unfold resolveBlock at h
  split at h
  · next toolUseId content isError =>
      dsimp only at h
      split at h
      · cases h
        simp
      · rw [Option.bind_eq_bind, Option.bind_eq_some_iff] at h
        obtain ⟨loaded, -, h⟩ := h
        cases loaded with
        | some entry =>
          cases h
          simp
        | none =>
          cases h
          simp [blockOutline]
  · cases h
    simp

theorem foldlM_resolveBlock_outline {blocks : List ContentBlock}
    {w w' : Rewriting}
    (h : blocks.foldlM (resolveBlock store state) w = some w') :
    w'.blocks.map blockOutline
      = w.blocks.map blockOutline ++ blocks.map blockOutline := by
  induction blocks generalizing w with
  | nil =>
    cases h
    simp
  | cons block blocks ih =>
    rw [List.foldlM_cons, Option.bind_eq_bind,
      Option.bind_eq_some_iff] at h
    obtain ⟨next, hnext, h⟩ := h
    rw [ih h, resolveBlock_outline hnext, List.map_cons, List.append_assoc]
    rfl

theorem resolveMessage_outline {m m' : RuntimeMessage}
    {effects : List EffectKind}
    (h : resolveMessage store state m = some (m', effects)) :
    outline m' = outline m := by
  unfold resolveMessage at h
  rw [Option.bind_eq_bind, Option.bind_eq_some_iff] at h
  obtain ⟨entries, -, h⟩ := h
  rw [Option.bind_eq_bind, Option.bind_eq_some_iff] at h
  obtain ⟨w, hw, h⟩ := h
  split at h
  · cases h
    rfl
  · cases h
    exact outline_eq (frame_rewriteMessage m _ _ _)
      (foldlM_resolveBlock_outline hw)

end Resolution

theorem reduces_of_outline (h : outline m' = outline m) : Reduces m m' := by
  unfold outline at h
  simp only [RuntimeMessage.mk.injEq] at h
  refine ⟨?_, h.2.2.1 ▸ List.Sublist.refl _⟩
  unfold frame
  simp only [RuntimeMessage.mk.injEq]
  exact ⟨h.1, h.2.1, trivial, h.2.2.2.1, h.2.2.2.2.1, h.2.2.2.2.2⟩

theorem shrinks_of_forall₂
    (h : List.Forall₂ (fun m m' => outline m' = outline m) before after) :
    Shrinks before after := by
  induction h with
  | nil => exact Shrinks.refl []
  | @cons m m' ms ms' hm _ ih =>
    have hred := reduces_of_outline hm
    refine ⟨?_, fun c hc => ?_⟩
    · rw [List.map_cons, List.map_cons, hred.messageId]
      exact ih.ids.cons_cons _
    · rcases List.mem_cons.1 hc with rfl | hc
      · exact ⟨m, List.mem_cons_self .., hred⟩
      · obtain ⟨b, hb, hbc⟩ := ih.reduces c hc
        exact ⟨b, List.mem_cons_of_mem _ hb, hbc⟩

theorem forall₂_mapM {β : Type} {R : RuntimeMessage → β → Prop}
    {f : RuntimeMessage → Option β} (hf : ∀ m b, f m = some b → R m b)
    {out : List β} (h : messages.mapM f = some out) :
    List.Forall₂ R messages out := by
  induction messages generalizing out with
  | nil =>
    cases h
    exact List.Forall₂.nil
  | cons m ms ih =>
    rw [List.mapM_cons, Option.bind_eq_bind,
      Option.bind_eq_some_iff] at h
    obtain ⟨b, hb, h⟩ := h
    rw [Option.bind_eq_bind, Option.bind_eq_some_iff] at h
    obtain ⟨rest, hrest, h⟩ := h
    cases h
    exact List.Forall₂.cons (hf m b hb) (ih hrest)

theorem shrinks_resolve {σ : Type} {store : Option (ArtifactStore σ)}
    {state : σ} {effects : List EffectKind}
    (h : resolveSpilloverReferences store state messages
      = some (resolved, effects)) : Shrinks messages resolved := by
  unfold resolveSpilloverReferences at h
  rw [Option.bind_eq_bind, Option.bind_eq_some_iff] at h
  obtain ⟨⟨rewritten, found⟩, hrewritten, h⟩ := h
  dsimp only at h
  split at h
  · cases h
    exact Shrinks.refl messages
  · cases h
    refine Shrinks.trans (shrinks_of_forall₂ ?_)
      (shrinks_ensureToolResultPairing rewritten)
    unfold resolvedMessages at hrewritten
    cases store with
    | none =>
      cases hrewritten
      exact List.forall₂_same.2 fun _ _ => rfl
    | some store =>
      simp only [Option.bind_eq_bind, Option.bind_eq_some_iff]
        at hrewritten
      obtain ⟨pairs, hpairs, hrewritten⟩ := hrewritten
      cases hrewritten
      have hall := forall₂_mapM
        (R := fun m (entry : RuntimeMessage × List EffectKind) =>
          outline entry.1 = outline m)
        (fun m entry hm => resolveMessage_outline hm) hpairs
      exact List.forall₂_map_right_iff.2 hall

section Planning

variable {σ : Type} {store : Option (ArtifactStore σ)}
  {policyTag : Option String}
  {decisions : Dict String ContextWindowDecision} {messageId : String}

variable {effects : List EffectKind} {state state' : σ}

theorem planBlock_outline {w w' : Rewriting} {slot : ContentBlock × Nat}
    (h : planBlock store policyTag decisions messageId (w, state) slot
      = some (w', state')) :
    w'.blocks.map blockOutline
      = w.blocks.map blockOutline ++ [blockOutline slot.1] := by
  obtain ⟨block, index⟩ := slot
  unfold planBlock at h
  dsimp only at h
  split at h
  · next toolUseId content isError =>
      split at h
      · cases h
        simp
      · rw [Option.bind_eq_bind, Option.bind_eq_some_iff] at h
        obtain ⟨⟨artifact, next⟩, -, h⟩ := h
        cases h
        simp [blockOutline]
  · cases h
    simp

theorem foldlM_planBlock_outline {slots : List (ContentBlock × Nat)}
    {w w' : Rewriting}
    (h : slots.foldlM (planBlock store policyTag decisions messageId)
      (w, state) = some (w', state')) :
    w'.blocks.map blockOutline
      = w.blocks.map blockOutline
        ++ slots.map fun slot => blockOutline slot.1 := by
  induction slots generalizing w state with
  | nil =>
    cases h
    simp
  | cons slot slots ih =>
    rw [List.foldlM_cons, Option.bind_eq_bind,
      Option.bind_eq_some_iff] at h
    obtain ⟨⟨next, nextState⟩, hnext, h⟩ := h
    rw [ih h, planBlock_outline hnext, List.map_cons, List.append_assoc]
    rfl

theorem planMessage_outline {updated updated' : List RuntimeMessage}
    {effects' : List EffectKind} {m : RuntimeMessage}
    (h : planMessage store policyTag decisions (updated, effects, state) m
      = some (updated', effects', state')) :
    ∃ m', updated' = updated ++ [m'] ∧ outline m' = outline m := by
  unfold planMessage at h
  dsimp only at h
  rw [Option.bind_eq_bind, Option.bind_eq_some_iff] at h
  obtain ⟨entries, -, h⟩ := h
  rw [Option.bind_eq_bind, Option.bind_eq_some_iff] at h
  obtain ⟨⟨w, next⟩, hw, h⟩ := h
  cases h
  refine ⟨_, rfl, ?_⟩
  have hblocks : w.blocks.map blockOutline = m.content.map blockOutline := by
    rw [foldlM_planBlock_outline hw]
    have hfst : m.content.zipIdx.map (fun slot => blockOutline slot.1)
        = (m.content.zipIdx.map Prod.fst).map blockOutline := by
      rw [List.map_map]
      rfl
    rw [hfst, List.zipIdx_map_fst]
    rfl
  split
  · exact outline_eq rfl hblocks
  · exact outline_eq (frame_rewriteMessage m _ _ _) hblocks

theorem foldlM_planMessage_outline {messages : List RuntimeMessage}
    {updated updated' : List RuntimeMessage} {effects' : List EffectKind}
    (h : messages.foldlM (planMessage store policyTag decisions)
      (updated, effects, state) = some (updated', effects', state')) :
    ∃ rewritten, updated' = updated ++ rewritten
      ∧ List.Forall₂ (fun m m' => outline m' = outline m) messages
        rewritten := by
  induction messages generalizing updated effects state with
  | nil =>
    cases h
    exact ⟨[], (List.append_nil _).symm, List.Forall₂.nil⟩
  | cons m ms ih =>
    rw [List.foldlM_cons, Option.bind_eq_bind,
      Option.bind_eq_some_iff] at h
    obtain ⟨⟨next, nextEffects, nextState⟩, hnext, h⟩ := h
    obtain ⟨m', rfl, hm⟩ := planMessage_outline hnext
    obtain ⟨rewritten, rfl, hrest⟩ := ih h
    exact ⟨m' :: rewritten, List.append_assoc .., hrest.cons hm⟩

theorem shrinks_applyContextWindowPlan {plan : ContextWindowPlan}
    {messages planned : List RuntimeMessage}
    (h : applyContextWindowPlan store state plan messages
      = some (planned, effects, state')) : Shrinks messages planned := by
  unfold applyContextWindowPlan at h
  dsimp only at h
  split at h
  · cases h
    exact Shrinks.refl messages
  · rw [Option.bind_eq_bind, Option.bind_eq_some_iff] at h
    obtain ⟨⟨updated, found, next⟩, hupdated, h⟩ := h
    cases h
    obtain ⟨rewritten, rfl, hall⟩ := foldlM_planMessage_outline hupdated
    exact Shrinks.trans (shrinks_of_forall₂ hall)
      (shrinks_ensureToolResultPairing _)

end Planning

theorem resolve_of_no_effects {σ : Type} {store : Option (ArtifactStore σ)}
    {state : σ} (h : resolveSpilloverReferences store state messages
      = some (resolved, [])) : resolved = messages := by
  unfold resolveSpilloverReferences at h
  rw [Option.bind_eq_bind, Option.bind_eq_some_iff] at h
  obtain ⟨⟨rewritten, found⟩, -, h⟩ := h
  dsimp only at h
  split at h
  · cases h
    rfl
  · next hfound =>
      have heffects := congrArg Prod.snd (Option.some.inj h)
      exact absurd (List.isEmpty_iff.2 heffects) hfound

theorem shrinks_planPass {σ : Type} {c : PrepareConfig σ}
    {planned : List RuntimeMessage} {effects : List EffectKind}
    (h : planPass c resolved = some (planned, effects)) :
    Shrinks resolved planned := by
  unfold planPass at h
  split at h
  · cases h
    exact Shrinks.refl resolved
  · rw [Option.bind_eq_bind, Option.bind_eq_some_iff] at h
    obtain ⟨plan, -, h⟩ := h
    cases plan with
    | none =>
      cases h
      exact Shrinks.refl resolved
    | some plan =>
      simp only [Option.bind_eq_bind, Option.bind_eq_some_iff] at h
      obtain ⟨⟨updated, found, next⟩, hplan, h⟩ := h
      cases h
      exact shrinks_applyContextWindowPlan hplan

theorem runPasses_shrinks {σ : Type} {c : PrepareConfig σ} {p : Passes}
    (h : runPasses c messages = some p) :
    Shrinks messages p.resolved ∧ Shrinks p.resolved p.planned
      ∧ Shrinks p.planned p.projected
      ∧ (p.resolvedEffects = [] → p.resolved = messages)
      ∧ prepareTurn c.dumps [thresholdSummary c.dumps c.draws] c.policy
        p.projected = some p.compaction := by
  unfold runPasses at h
  simp only [Option.bind_eq_bind, Option.bind_eq_some_iff] at h
  obtain ⟨⟨resolved, effects⟩, hresolved, h⟩ := h
  obtain ⟨⟨planned, planEffects⟩, hplanned, h⟩ := h
  obtain ⟨compaction, hcompaction, h⟩ := h
  cases h
  refine ⟨shrinks_resolve hresolved, shrinks_planPass hplanned,
    shrinks_applyProjectionPass _ _, fun hnone => ?_, hcompaction⟩
  dsimp only at hnone ⊢
  subst hnone
  exact resolve_of_no_effects hresolved

/-- A compaction that is applied keeps each of its messages or lists it in
its boundary, and adds its summary. -/
theorem prepareTurn_accounts {dumps : Payload → Option String}
    {draws : SummaryDraws} {policy : CompactionPolicy} {r : CompactionResult}
    (h : prepareTurn dumps [thresholdSummary dumps draws] policy messages
      = some r) :
    (r.applied = false ∧ summarizedIds r = [])
      ∨ (r.applied = true
        ∧ (∀ m ∈ messages, m.messageId ∈ summarizedIds r ∨ m ∈ r.messages)
        ∧ (∀ id ∈ summarizedIds r,
          id ∈ messages.map RuntimeMessage.messageId)
        ∧ ∀ t ∈ r.messages, t ∈ messages ∨ t.messageId = draws.summaryId) := by
  obtain ⟨pressure, -, hcases⟩ := prepareTurn_cases h
  rcases hcases with ⟨-, -, hsteps⟩ | ⟨step, hstep, hmessages, hsteps⟩
  · left
    unfold CompactionResult.applied summarizedIds CompactionResult.boundary
    rw [hsteps]
    exact ⟨rfl, rfl⟩
  · right
    rcases thresholdSummary_cases hstep with ⟨hnone, -⟩ | ⟨-, hsome⟩
    · cases hnone
    · obtain ⟨trigger, text, heq⟩ := hsome
      cases heq
      have hids : summarizedIds r
          = (compactCandidates policy (splitPinnedPrefix messages).2).map
            RuntimeMessage.messageId := by
        unfold summarizedIds CompactionResult.boundary
        rw [hsteps]
        rfl
      have happlied : r.applied = true := by
        unfold CompactionResult.applied
        rw [hsteps]
        rfl
      have hsplit : messages = (splitPinnedPrefix messages).1
          ++ (compactCandidates policy (splitPinnedPrefix messages).2
            ++ preservedTail policy (splitPinnedPrefix messages).2) := by
        unfold compactCandidates preservedTail
        rw [List.take_append_drop]
        exact (List.takeWhile_append_dropWhile).symm
      refine ⟨happlied, fun m hm => ?_, fun id hid => ?_, fun t ht => ?_⟩
      · rw [hsplit] at hm
        rw [hids, hmessages]
        rcases List.mem_append.1 hm with hpinned | hm
        · exact Or.inr (List.mem_append_left _ hpinned)
        · rcases List.mem_append.1 hm with hcandidate | htail
          · exact Or.inl (List.mem_map_of_mem hcandidate)
          · exact Or.inr (List.mem_append_right _
              (List.mem_cons_of_mem _ htail))
      · rw [hids] at hid
        obtain ⟨m, hm, rfl⟩ := List.mem_map.1 hid
        refine List.mem_map_of_mem ?_
        rw [hsplit]
        exact List.mem_append_right _ (List.mem_append_left _ hm)
      · rw [hmessages] at ht
        rcases List.mem_append.1 ht with hpinned | ht
        · refine Or.inl ?_
          rw [hsplit]
          exact List.mem_append_left _ hpinned
        · rcases List.mem_cons.1 ht with rfl | htail
          · exact Or.inr rfl
          · refine Or.inl ?_
            rw [hsplit]
            exact List.mem_append_right _ (List.mem_append_right _ htail)

-- ======== what is kept

theorem Keeps.refl (summarized : List String)
    (messages : List RuntimeMessage) : Keeps summarized messages messages :=
  fun m hm => ⟨m, hm, rfl, Or.inr rfl⟩

theorem Keeps.trans {summarized : List String} {m : List RuntimeMessage}
    (h : Keeps summarized l m) (h' : Keeps summarized m n) :
    Keeps summarized l n := by
  intro a ha
  obtain ⟨b, hb, hid, hab⟩ := h a ha
  obtain ⟨d, hd, hid', hbd⟩ := h' b hb
  refine ⟨d, hd, hid'.trans hid, ?_⟩
  rcases hab with hspared | hab
  · exact Or.inl hspared
  · rcases hbd with hspared | hbd
    · exact Or.inl (hid ▸ hspared)
    · exact Or.inr (hbd.trans hab)

theorem eq_of_messageId
    (hdistinct : (messages.map RuntimeMessage.messageId).Nodup)
    (hm : m ∈ messages) (hm' : m' ∈ messages)
    (hid : m.messageId = m'.messageId) : m = m' :=
  List.inj_on_of_nodup_map hdistinct hm hm' hid

theorem Shrinks.reduces_of_messageId (h : Shrinks before after)
    (hdistinct : (before.map RuntimeMessage.messageId).Nodup)
    (hm : m ∈ before) (hm' : m' ∈ after) (hid : m'.messageId = m.messageId) :
    Reduces m m' := by
  obtain ⟨b, hb, hred⟩ := h.reduces m' hm'
  rw [← eq_of_messageId hdistinct hb hm (hred.messageId.symm.trans hid)]
  exact hred

theorem keeps_split {summarized : List String} {m : List RuntimeMessage}
    (h : Shrinks l m) (h' : Shrinks m n)
    (hdistinct : (l.map RuntimeMessage.messageId).Nodup)
    (hkeeps : Keeps summarized l n) :
    Keeps summarized l m ∧ Keeps summarized m n := by
  -- a message at the start, between and at the end
  have hthree : ∀ a ∈ l, ∃ b ∈ m, ∃ d ∈ n, Reduces a b ∧ Reduces b d
      ∧ (a.messageId ∈ summarized
        ∨ d.content.length = a.content.length) := by
    intro a ha
    obtain ⟨d, hd, hid, had⟩ := hkeeps a ha
    obtain ⟨b, hb, hbd⟩ := h'.reduces d hd
    exact ⟨b, hb, d, hd, h.reduces_of_messageId hdistinct ha hb
      (hbd.messageId.symm.trans hid), hbd, had⟩
  refine ⟨fun a ha => ?_, fun b hb => ?_⟩
  · obtain ⟨b, hb, d, hd, hab, hbd, had⟩ := hthree a ha
    refine ⟨b, hb, hab.messageId, ?_⟩
    rcases had with hspared | hlength
    · exact Or.inl hspared
    · have hab' := hab.length_le
      have hbd' := hbd.length_le
      right
      omega
  · obtain ⟨a, ha, hab⟩ := h.reduces b hb
    obtain ⟨b', hb', d, hd, hab', hbd, had⟩ := hthree a ha
    have hsame : b' = b := eq_of_messageId (h.ids.nodup hdistinct) hb' hb
      (hab'.messageId.trans hab.messageId.symm)
    subst hsame
    refine ⟨d, hd, hbd.messageId, ?_⟩
    rcases had with hspared | hlength
    · exact Or.inl (hab.messageId ▸ hspared)
    · have hlab := hab.length_le
      have hlbd := hbd.length_le
      right
      omega

/-- Messages are accounted for by the list at the end of the passes
exactly when the passes keep them. -/
theorem accounted_iff_keeps {finished : List RuntimeMessage}
    (h : Shrinks messages finished)
    (hdistinct : (messages.map RuntimeMessage.messageId).Nodup) :
    Accounted messages finished [] ↔ Keeps [] messages finished := by
  refine ⟨fun hall m hm => ?_, fun hall m hm => ?_⟩
  · rcases hall m hm with hnone | ⟨t, ht, hout⟩
    · cases hnone
    · have hid : t.messageId = m.messageId := by
        have heq := congrArg RuntimeMessage.messageId hout
        exact heq
      have hlength := congrArg (fun x => x.content.length) hout
      simp only [outline, List.length_map] at hlength
      exact ⟨t, ht, hid, Or.inr hlength⟩
  · obtain ⟨t, ht, hid, hkept⟩ := hall m hm
    rcases hkept with hnone | hlength
    · cases hnone
    · exact Or.inr ⟨t, ht, (h.reduces_of_messageId hdistinct hm ht
        hid).outline_eq_of_length hlength⟩

/-- Under an applied compaction the messages are accounted for exactly when
the passes before it keep them, the summarised ones apart. -/
theorem accounted_compacted_iff {dumps : Payload → Option String}
    {draws : SummaryDraws} {policy : CompactionPolicy}
    {projected : List RuntimeMessage} {r : CompactionResult}
    (h : Shrinks messages projected)
    (hdistinct : (messages.map RuntimeMessage.messageId).Nodup)
    (hfresh : draws.summaryId ∉ messages.map RuntimeMessage.messageId)
    (hr : prepareTurn dumps [thresholdSummary dumps draws] policy projected
      = some r) (happlied : r.applied = true) :
    Accounted messages r.messages (summarizedIds r)
      ↔ Keeps (summarizedIds r) messages projected := by
  rcases prepareTurn_accounts hr with ⟨hnot, -⟩ | ⟨-, hkept, hlisted, honly⟩
  · rw [happlied] at hnot
    cases hnot
  refine ⟨fun hall m hm => ?_, fun hall m hm => ?_⟩
  · rcases hall m hm with hsummarized | ⟨t, ht, hout⟩
    · obtain ⟨d, hd, hid⟩ := List.mem_map.1 (hlisted _ hsummarized)
      exact ⟨d, hd, hid, Or.inl hsummarized⟩
    · have hid : t.messageId = m.messageId := by
        have heq := congrArg RuntimeMessage.messageId hout
        exact heq
      rcases honly t ht with hmem | hsummary
      · have hlength := congrArg (fun x => x.content.length) hout
        simp only [outline, List.length_map] at hlength
        exact ⟨t, hmem, hid, Or.inr hlength⟩
      · refine absurd ?_ hfresh
        rw [← hsummary, hid]
        exact List.mem_map_of_mem hm
  · obtain ⟨d, hd, hid, hkeep⟩ := hall m hm
    rcases hkeep with hsummarized | hlength
    · exact Or.inl hsummarized
    · rcases hkept d hd with hsummarized | hmem
      · exact Or.inl (hid ▸ hsummarized)
      · exact Or.inr ⟨d, hmem, (h.reduces_of_messageId hdistinct hm hd
          hid).outline_eq_of_length hlength⟩

/-- No transcript store and no hook; a forced compaction that keeps the
last message, under a projection limit. -/
def sampleConfig (limit : Option Int) : PrepareConfig Unit where
  transcriptStore := none
  state := ()
  contextWindowHook _ := some none
  projectionMaxMessages := limit
  policy := { smallPolicy with force := true }
  dumps _ := none
  draws := ⟨"s", "boundary", newYear⟩

def sampleMessages : List RuntimeMessage :=
  ["a", "b", "c", "d"].map userMessage

/-- What is looked at of the passes: the ids of the transcript, and those
that are summarised. -/
def Passes.outlook (p : Passes) : Option (List String) × List String :=
  (p.prepared.transcriptMessages.map fun transcript =>
    transcript.map RuntimeMessage.messageId, summarizedIds p.compaction)

theorem outlook_unprojected :
    (runPasses (sampleConfig none) sampleMessages).map Passes.outlook
      = some (some ["s", "d"], ["a", "b", "c"]) := by
  decide

theorem outlook_projected :
    (runPasses (sampleConfig (some 2)) sampleMessages).map Passes.outlook
      = some (some ["s", "d"], ["c"]) := by
  decide

end WeaveRuntime.ContextWindow
