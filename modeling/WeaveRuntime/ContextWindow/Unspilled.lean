/-
Which tool results a resolution leaves alone.

A result that a context window plan has externalised refers to its
artifact, and so does one whose tool has used the key `artifact_ref`. Every
other result is left alone, whatever becomes of the messages around it, as
long as no plan decides it.

# How it is read

`Unspilled` is what a message keeps as long as no plan decides one of its
results: the entries of the tool call still satisfy what the orchestrator
gave them, and its blocks are blocks of the first message. The two passes
that rewrite messages keep it block by block (`resolveBlock_spares`,
`planBlock_spares`); a rewritten message differs from the one before by
blocks and entries of other calls only (`Like`), so the repair that follows
decides the same of both (`resultsOf_ensure_congr`).
-/
import Mathlib.Logic.Relation
import WeaveRuntime.ContextWindow.Preparation
import WeaveRuntime.ContextWindow.Projection
import WeaveRuntime.ContextWindow.Spillover

namespace WeaveRuntime.ContextWindow

open Lib Python Messages
open Tools
open Jobs (Fields setField getField lookupKey_setField)
open Compaction (dict)

-- =========== unspilled

def isResultOf (t : String) : ContentBlock → Bool
  | .toolResult toolUseId _ _ => toolUseId = t
  | _ => false

/-- The message's entries for `t` satisfy `P`, its results of `t` are among
`blocks`. -/
structure Unspilled (t : String) (P : Fields → Prop)
    (blocks : List ContentBlock) (n : RuntimeMessage) : Prop where
  entries : ∀ entries, toolResultEntries n.metadata = some entries →
    ∀ fields, .dict fields ∈ entries → entryId fields = t → P fields
  blocks : ∀ b ∈ n.content, isResultOf t b = true → b ∈ blocks

structure Harmless (t : String) (P : Fields → Prop)
    (blocks : List ContentBlock) : Prop where
  entry : ∀ fields, P fields → textField fields "artifact_ref" = none
  /-- the entry a pass makes where there is none -/
  fresh : P (dict [("tool_use_id", .str t)])
  content : ∀ content isError, .toolResult t content isError ∈ blocks →
    payloadField content "artifact_ref" = none

/-- What a pass may make of a block: another result of another call. -/
def Like (t : String) (b b' : ContentBlock) : Prop :=
  blockOutline b' = blockOutline b ∧ (isResultOf t b = true → b' = b)

theorem Like.refl (t : String) (b : ContentBlock) : Like t b b :=
  ⟨rfl, fun _ => rfl⟩

theorem isResultOf_blockOutline (t : String) (b : ContentBlock) :
    isResultOf t (blockOutline b) = isResultOf t b := by
  cases b with
  | _ => rfl

variable {messageId : String} {messages : List RuntimeMessage} {t : String}

theorem Like.isResultOf_eq {b b' : ContentBlock} (h : Like t b b') :
    isResultOf t b' = isResultOf t b := by
  rw [← isResultOf_blockOutline, h.1, isResultOf_blockOutline]

/-- The table of a pass: each entry under its id, those of `t` as in the
message. -/
def Tabled (t : String) (P : Fields → Prop) (table : Dict String Fields) :
    Prop :=
  ∀ id fields, table.get? id = some fields →
    entryId fields = id ∧ (id = t → P fields)

section Tables

variable {t : String} {P : Fields → Prop} {blocks : List ContentBlock}

variable {entries : List PyVal} {table : Dict String Fields}

theorem Tabled.insert (h : Tabled t P table) {id : String} {fields : Fields}
    (hid : entryId fields = id) (hP : id = t → P fields) :
    Tabled t P (table.insert id fields) := by
  intro id' fields' hget
  rw [Dict.get?_insert] at hget
  split at hget
  · next heq =>
    cases hget
    rw [heq]
    exact ⟨hid, hP⟩
  · exact h id' fields' hget

theorem Tabled.entryOf (h : Tabled t P table) (hH : Harmless t P blocks)
    (id : String) :
    entryId (entryOf table id) = id
      ∧ (id = t → P (ContextWindow.entryOf table id)) := by
  unfold ContextWindow.entryOf
  cases hget : table.get? id with
  | none =>
    refine ⟨rfl, fun heq => ?_⟩
    rw [heq]
    exact hH.fresh
  | some fields => exact h id fields hget

theorem tabled_metadataByToolUse {n : RuntimeMessage}
    (hn : Unspilled t P blocks n)
    (hentries : toolResultEntries n.metadata = some entries) :
    Tabled t P (metadataByToolUse entries) := by
  have hall := hn.entries entries hentries
  refine List.foldlRecOn entries _ ?_ ?_
  · intro id fields hget
    cases hget
  · -- an entry that is no dictionary leaves the table as it is
    intro table htable entry hmem
    cases entry with
    | dict fields =>
      exact htable.insert rfl fun heq => hall fields hmem heq
    | _ => exact htable

theorem orderedToolResults_tabled (h : Tabled t P table) {l : List PyVal}
    (hl : orderedToolResults entries table = .list l) :
    ∀ fields, .dict fields ∈ l → entryId fields = t → P fields := by
  unfold orderedToolResults at hl
  cases hl
  intro fields hmem hid
  obtain ⟨id, -, hget⟩ := List.mem_filterMap.1 hmem
  obtain ⟨found, hfound, heq⟩ := Option.map_eq_some_iff.1 hget
  cases heq
  obtain ⟨hfoundId, hP⟩ := h id fields hfound
  exact hP (hfoundId.symm.trans hid)

theorem unspilled_rewriteMessage {n : RuntimeMessage}
    {rewritten : List ContentBlock} (hn : Unspilled t P blocks n)
    (hlike : List.Forall₂ (Like t) n.content rewritten)
    (htable : Tabled t P table) :
    Unspilled t P blocks (rewriteMessage n rewritten entries table) := by
  refine ⟨fun found hfound => ?_, fun b hb hresult => ?_⟩
  · have hordered : orderedToolResults entries table = .list found := by
      unfold toolResultEntries rewriteMessage at hfound
      dsimp only at hfound
      rw [lookupKey_setField, if_pos rfl] at hfound
      unfold orderedToolResults at hfound ⊢
      cases hfound
      rfl
    exact orderedToolResults_tabled htable hordered
  · obtain ⟨x, hx, hlike⟩ := source_of_mem hlike hb
    rw [hlike.isResultOf_eq] at hresult
    rw [hlike.2 hresult]
    exact hn.blocks x hx hresult

end Tables

-- =========== resolving

section Passes

variable {t : String} {P : Fields → Prop} {blocks : List ContentBlock}
  {σ : Type}

theorem entryId_artifactReference (entry : Fields) (content : Payload) :
    entryId (artifactReference entry content).1 = entryId entry := by
  unfold artifactReference
  split
  · rfl
  · split
    · exact entryId_setField entry _ (by decide)
    · rfl

variable {effects : List EffectKind} {messages : List RuntimeMessage}
  {state : σ} {store : ArtifactStore σ}

theorem resolveBlock_spares (hH : Harmless t P blocks) {w w' : Rewriting}
    {b : ContentBlock} (htable : Tabled t P w.table)
    (hb : isResultOf t b = true → b ∈ blocks)
    (h : resolveBlock store state w b = some w') :
    Tabled t P w'.table ∧ ∃ b', w'.blocks = w.blocks ++ [b'] ∧ Like t b b' := by
  cases b with
  | toolResult toolUseId content isError =>
    have hentry := htable.entryOf hH toolUseId
    have hid := entryId_artifactReference (entryOf w.table toolUseId) content
    by_cases ht : toolUseId = t
    · -- neither the entry nor the content refers to an artifact
      have hnone : artifactReference (entryOf w.table toolUseId) content
          = (entryOf w.table toolUseId, none) := by
        have hcontent := hH.content content isError (by
          rw [← ht]
          exact hb (decide_eq_true ht))
        unfold artifactReference
        rw [hH.entry _ (hentry.2 ht), hcontent]
      unfold resolveBlock at h
      dsimp only at h
      rw [hnone] at h
      cases h
      exact ⟨htable.insert hentry.1 hentry.2, _, rfl, Like.refl t _⟩
    · have hother : ∀ {fields}, toolUseId = t → P fields :=
        fun heq => absurd heq ht
      have hresult : isResultOf t (.toolResult toolUseId content isError)
          = true → False := fun hres => ht (of_decide_eq_true hres)
      unfold resolveBlock at h
      dsimp only at h
      split at h
      · cases h
        exact ⟨htable.insert (hid.trans hentry.1) hother, _, rfl,
          Like.refl t _⟩
      · rw [Option.bind_eq_bind, Option.bind_eq_some_iff] at h
        obtain ⟨loaded, -, h⟩ := h
        cases loaded with
        | some found =>
          cases h
          exact ⟨htable.insert (hid.trans hentry.1) hother, _, rfl,
            Like.refl t _⟩
        | none =>
          cases h
          refine ⟨htable.insert ?_ hother, _, rfl, rfl,
            fun hres => absurd hres hresult⟩
          rw [entryId_setField _ _ (by decide),
            entryId_setField _ _ (by decide),
            entryId_setField _ _ (by decide), hid]
          exact hentry.1
  | _ =>
    cases h
    exact ⟨htable, _, rfl, Like.refl t _⟩

theorem foldlM_resolveBlock_spares (hH : Harmless t P blocks)
    {content : List ContentBlock}
    (hcontent : ∀ b ∈ content, isResultOf t b = true → b ∈ blocks)
    {w w' : Rewriting} (htable : Tabled t P w.table)
    (h : content.foldlM (resolveBlock store state) w = some w') :
    Tabled t P w'.table ∧ ∃ rewritten, w'.blocks = w.blocks ++ rewritten
      ∧ List.Forall₂ (Like t) content rewritten := by
  induction content generalizing w with
  | nil =>
    cases h
    exact ⟨htable, [], (List.append_nil _).symm, .nil⟩
  | cons b content ih =>
    rw [List.foldlM_cons, Option.bind_eq_bind,
      Option.bind_eq_some_iff] at h
    obtain ⟨next, hnext, h⟩ := h
    obtain ⟨hnextTable, b', hb', hlike⟩ := resolveBlock_spares hH htable
      (hcontent b (List.mem_cons_self ..)) hnext
    obtain ⟨hlast, rewritten, hblocks, hall⟩ :=
      ih (fun c hc => hcontent c (List.mem_cons_of_mem _ hc)) hnextTable h
    refine ⟨hlast, b' :: rewritten, ?_, .cons hlike hall⟩
    rw [hblocks, hb', List.append_assoc]
    rfl

/-- What a pass makes of a message. -/
structure Spared (t : String) (P : Fields → Prop)
    (blocks : List ContentBlock) (n n' : RuntimeMessage) : Prop where
  unspilled : Unspilled t P blocks n'
  content : List.Forall₂ (Like t) n.content n'.content

theorem resolveMessage_spares (hH : Harmless t P blocks)
    {n n' : RuntimeMessage} (hn : Unspilled t P blocks n)
    (h : resolveMessage store state n = some (n', effects)) :
    Spared t P blocks n n' := by
  unfold resolveMessage at h
  rw [Option.bind_eq_bind, Option.bind_eq_some_iff] at h
  obtain ⟨entries, hentries, h⟩ := h
  rw [Option.bind_eq_bind, Option.bind_eq_some_iff] at h
  obtain ⟨w, hw, h⟩ := h
  obtain ⟨htable, rewritten, hblocks, hlike⟩ :=
    foldlM_resolveBlock_spares hH hn.blocks
      (tabled_metadataByToolUse hn hentries) hw
  rw [List.nil_append] at hblocks
  split at h
  · cases h
    exact ⟨hn, List.forall₂_same.2 fun b _ => Like.refl t b⟩
  · cases h
    rw [hblocks]
    exact ⟨unspilled_rewriteMessage hn hlike htable, hlike⟩

-- ============ planning

theorem entryId_decidedEntry (policyTag : Option String) (entry : Fields)
    (d : ContextWindowDecision) :
    entryId (decidedEntry policyTag entry d) = entryId entry := by
  unfold decidedEntry
  cases policyTag with
  | none => exact entryId_setField entry _ (by decide)
  | some tag =>
    dsimp only
    rw [entryId_setField _ _ (by decide), entryId_setField _ _ (by decide)]

theorem entryId_artifactEntry (entry : Fields)
    (artifact : Option Transcripts.ArtifactManifestEntry) :
    entryId (artifactEntry entry artifact) = entryId entry := by
  cases artifact with
  | none => rfl
  | some artifact =>
    unfold artifactEntry
    dsimp only
    rw [entryId_setField _ _ (by decide), entryId_setField _ _ (by decide),
      entryId_setField _ _ (by decide)]

theorem entryId_decideResult (d : ContextWindowDecision)
    (artifact : Option Transcripts.ArtifactManifestEntry) (content : Payload)
    (entry : Fields) :
    entryId (decideResult d artifact content entry).2.1 = entryId entry := by
  unfold decideResult
  split
  · dsimp only
    rw [entryId_setField _ _ (by decide), entryId_setField _ _ (by decide)]
  · dsimp only
    split
    · exact entryId_setField _ _ (by decide)
    · rw [entryId_setField _ _ (by decide), entryId_setField _ _ (by decide)]
  · rfl

section Planning

variable {store : Option (ArtifactStore σ)} {policyTag : Option String}
  {decisions : Dict String ContextWindowDecision} {messageId : String}

theorem planBlock_spares (hH : Harmless t P blocks) {w w' : Rewriting}
    {state state' : σ} {slot : ContentBlock × Nat}
    (htable : Tabled t P w.table)
    (hfree : isResultOf t slot.1 = true →
      decisions.get? (candidateId messageId slot.2 t) = none)
    (h : planBlock store policyTag decisions messageId (w, state) slot
      = some (w', state')) :
    Tabled t P w'.table ∧ ∃ b', w'.blocks = w.blocks ++ [b']
      ∧ Like t slot.1 b' := by
  obtain ⟨b, index⟩ := slot
  cases b with
  | toolResult toolUseId content isError =>
    unfold planBlock at h
    dsimp only at h
    cases hget : decisions.get? (candidateId messageId index toolUseId) with
    | none =>
      rw [hget] at h
      cases h
      exact ⟨htable, _, rfl, Like.refl t _⟩
    | some d =>
      have ht : toolUseId ≠ t := by
        intro heq
        have hnone := hfree (decide_eq_true heq)
        dsimp only at hnone
        rw [← heq, hget] at hnone
        cases hnone
      rw [hget] at h
      dsimp only at h
      rw [Option.bind_eq_bind, Option.bind_eq_some_iff] at h
      obtain ⟨⟨artifact, next⟩, -, h⟩ := h
      cases h
      refine ⟨htable.insert ?_ fun heq => absurd heq ht, _, rfl, rfl,
        fun hres => absurd (of_decide_eq_true hres) ht⟩
      rw [entryId_decideResult, entryId_artifactEntry,
        entryId_decidedEntry]
      exact (htable.entryOf hH toolUseId).1
  | _ =>
    cases h
    exact ⟨htable, _, rfl, Like.refl t _⟩

theorem foldlM_planBlock_spares (hH : Harmless t P blocks)
    {slots : List (ContentBlock × Nat)} {w w' : Rewriting} {state state' : σ}
    (htable : Tabled t P w.table)
    (hfree : ∀ slot ∈ slots, isResultOf t slot.1 = true →
      decisions.get? (candidateId messageId slot.2 t) = none)
    (h : slots.foldlM (planBlock store policyTag decisions messageId)
      (w, state) = some (w', state')) :
    Tabled t P w'.table ∧ ∃ rewritten, w'.blocks = w.blocks ++ rewritten
      ∧ List.Forall₂ (Like t) (slots.map Prod.fst) rewritten := by
  induction slots generalizing w state with
  | nil =>
    cases h
    exact ⟨htable, [], (List.append_nil _).symm, .nil⟩
  | cons slot slots ih =>
    rw [List.foldlM_cons, Option.bind_eq_bind,
      Option.bind_eq_some_iff] at h
    obtain ⟨⟨next, nextState⟩, hnext, h⟩ := h
    obtain ⟨hnextTable, b', hb', hlike⟩ := planBlock_spares hH htable
      (hfree slot (List.mem_cons_self ..)) hnext
    obtain ⟨hlast, rewritten, hblocks, hall⟩ :=
      ih hnextTable (fun c hc => hfree c (List.mem_cons_of_mem _ hc)) h
    refine ⟨hlast, b' :: rewritten, ?_, .cons hlike hall⟩
    rw [hblocks, hb', List.append_assoc]
    rfl

theorem planMessage_spares (hH : Harmless t P blocks)
    {updated updated' : List RuntimeMessage}
    {effects effects' : List EffectKind} {state state' : σ}
    {n : RuntimeMessage} (hn : Unspilled t P blocks n)
    (hfree : ∀ slot ∈ n.content.zipIdx, isResultOf t slot.1 = true →
      decisions.get? (candidateId n.messageId slot.2 t) = none)
    (h : planMessage store policyTag decisions (updated, effects, state) n
      = some (updated', effects', state')) :
    ∃ n', updated' = updated ++ [n'] ∧ Spared t P blocks n n' := by
  unfold planMessage at h
  dsimp only at h
  rw [Option.bind_eq_bind, Option.bind_eq_some_iff] at h
  obtain ⟨entries, hentries, h⟩ := h
  rw [Option.bind_eq_bind, Option.bind_eq_some_iff] at h
  obtain ⟨⟨w, next⟩, hw, h⟩ := h
  cases h
  obtain ⟨htable, rewritten, hblocks, hlike⟩ := foldlM_planBlock_spares hH
    (tabled_metadataByToolUse hn hentries) hfree hw
  rw [List.nil_append] at hblocks
  rw [List.zipIdx_map_fst] at hlike
  refine ⟨_, rfl, ?_⟩
  rw [hblocks]
  split
  · refine ⟨⟨hn.entries, fun b hb hresult => ?_⟩, hlike⟩
    obtain ⟨x, hx, hxb⟩ := source_of_mem hlike hb
    rw [hxb.isResultOf_eq] at hresult
    rw [hxb.2 hresult]
    exact hn.blocks x hx hresult
  · exact ⟨unspilled_rewriteMessage hn hlike htable, hlike⟩

end Planning

-- ================ runs

/-- What a loop makes of a message. -/
def Rewrites (messageId t : String) (P : Fields → Prop)
    (blocks : List ContentBlock) (n n' : RuntimeMessage) : Prop :=
  outline n' = outline n ∧ (n.messageId = messageId →
    Unspilled t P blocks n → Spared t P blocks n n')

def AllUnspilled (messageId t : String) (P : Fields → Prop)
    (blocks : List ContentBlock) (messages : List RuntimeMessage) : Prop :=
  ∀ n ∈ messages, n.messageId = messageId → Unspilled t P blocks n

variable {messageId : String}

section

variable (h : AllUnspilled messageId t P blocks messages)
include h

theorem AllUnspilled.of_rewrites {rewritten : List RuntimeMessage}
    (hall : List.Forall₂ (Rewrites messageId t P blocks) messages rewritten) :
    AllUnspilled messageId t P blocks rewritten := by
  induction hall with
  | nil => exact fun n hn => nomatch hn
  | @cons n n' ns ns' hn _ ih =>
    intro m hm hid
    rcases List.mem_cons.1 hm with rfl | hm
    · have hsame : m.messageId = n.messageId :=
        (reduces_of_outline hn.1).messageId
      rw [hsame] at hid
      exact (hn.2 hid (h n (List.mem_cons_self ..) hid)).unspilled
    · exact ih (fun k hk => h k (List.mem_cons_of_mem _ hk)) m hm hid

theorem AllUnspilled.ensure :
    AllUnspilled messageId t P blocks (ensureToolResultPairing messages) := by
  intro n hn hid
  rw [ensure_eq_repaired] at hn
  obtain ⟨entry, hentry, rfl⟩ := List.mem_map.1 hn
  have hmem : entry.1 ∈ messages :=
    List.fst_mem_of_mem_zipIdx (List.mem_filter.1 hentry).1
  have hold := h entry.1 hmem hid
  refine ⟨hold.entries, fun b hb => hold.blocks b ?_⟩
  obtain ⟨slot, hslot, rfl⟩ := List.mem_map.1 hb
  exact List.fst_mem_of_mem_zipIdx (List.mem_filter.1 hslot).1

theorem AllUnspilled.mono {messages' : List RuntimeMessage}
    (hsub : ∀ n ∈ messages', n.messageId = messageId → n ∈ messages) :
    AllUnspilled messageId t P blocks messages' :=
  fun n hn hid => h n (hsub n hn hid) hid

end

theorem resolvedMessages_rewrites (hH : Harmless t P blocks)
    {resolved : List RuntimeMessage}
    (h : resolvedMessages (some store) state messages
      = some (resolved, effects)) :
    List.Forall₂ (Rewrites messageId t P blocks) messages resolved := by
  unfold resolvedMessages at h
  simp only [Option.bind_eq_bind, Option.bind_eq_some_iff] at h
  obtain ⟨pairs, hpairs, h⟩ := h
  cases h
  refine List.forall₂_map_right_iff.2 (forall₂_mapM ?_ hpairs)
  intro n entry hn
  exact ⟨resolveMessage_outline hn, fun _ hold =>
    resolveMessage_spares hH hold hn⟩

theorem foldlM_planMessage_rewrites {store : Option (ArtifactStore σ)}
    {policyTag : Option String}
    {decisions : Dict String ContextWindowDecision} (hH : Harmless t P blocks)
    {updated updated' : List RuntimeMessage} {effects' : List EffectKind}
    {state' : σ} (hfree : ∀ n ∈ messages, n.messageId = messageId →
      ∀ slot ∈ n.content.zipIdx, isResultOf t slot.1 = true →
        decisions.get? (candidateId messageId slot.2 t) = none)
    (h : messages.foldlM (planMessage store policyTag decisions)
      (updated, effects, state) = some (updated', effects', state')) :
    ∃ rewritten, updated' = updated ++ rewritten
      ∧ List.Forall₂ (Rewrites messageId t P blocks) messages rewritten := by
  induction messages generalizing updated effects state with
  | nil =>
    cases h
    exact ⟨[], (List.append_nil _).symm, .nil⟩
  | cons n ns ih =>
    rw [List.foldlM_cons, Option.bind_eq_bind,
      Option.bind_eq_some_iff] at h
    obtain ⟨⟨next, nextEffects, nextState⟩, hnext, h⟩ := h
    obtain ⟨n', hn', houtline⟩ := planMessage_outline hnext
    obtain ⟨rewritten, hrewritten, hall⟩ :=
      ih (fun k hk => hfree k (List.mem_cons_of_mem _ hk)) h
    refine ⟨n' :: rewritten, ?_, .cons ⟨houtline, fun hid hold => ?_⟩ hall⟩
    · rw [hrewritten, hn', List.append_assoc]
      rfl
    · have hslots := hfree n (List.mem_cons_self ..) hid
      rw [← hid] at hslots
      obtain ⟨n'', hn'', hspared⟩ := planMessage_spares hH hold hslots hnext
      have heq := List.append_cancel_left (hn'.symm.trans hn'')
      cases heq
      exact hspared

end Passes

/-- What happens to the messages of a session, as long as no plan decides a
result of `t` in the message. -/
inductive ContextStep (messageId t : String) :
    List RuntimeMessage → List RuntimeMessage → Prop where
  | resolves {σ : Type} (store : Option (ArtifactStore σ)) (state : σ)
      {messages resolved : List RuntimeMessage} {effects : List EffectKind}
      (h : resolveSpilloverReferences store state messages
        = some (resolved, effects)) :
      ContextStep messageId t messages resolved
  | plans {σ : Type} (store : Option (ArtifactStore σ)) (state : σ)
      (plan : ContextWindowPlan) {state' : σ}
      {messages planned : List RuntimeMessage} {effects : List EffectKind}
      (hfree : ∀ n ∈ messages, n.messageId = messageId →
        ∀ slot ∈ n.content.zipIdx, isResultOf t slot.1 = true →
          (decisionsById (collectContextWindowCandidates messages)
            store.isSome plan).get? (candidateId messageId slot.2 t) = none)
      (h : applyContextWindowPlan store state plan messages
        = some (planned, effects, state')) :
      ContextStep messageId t messages planned
  | projects (limit : Option Int) (messages : List RuntimeMessage) :
      ContextStep messageId t messages (applyProjectionPass limit messages)
  /-- other messages come, and any messages go -/
  | others {messages messages' : List RuntimeMessage}
      (h : ∀ n ∈ messages', n.messageId = messageId → n ∈ messages) :
      ContextStep messageId t messages messages'

section Runs

variable {messageId t : String} {P : Fields → Prop}
  {blocks : List ContentBlock}

variable {messages : List RuntimeMessage}

theorem resolve_cases (messageId : String) {σ : Type}
    {store : Option (ArtifactStore σ)} {state : σ} {out : List RuntimeMessage}
    {effects : List EffectKind} (hH : Harmless t P blocks)
    (h : resolveSpilloverReferences store state messages
      = some (out, effects)) :
    out = messages ∨ ∃ resolved, out = ensureToolResultPairing resolved
      ∧ List.Forall₂ (Rewrites messageId t P blocks) messages resolved := by
  unfold resolveSpilloverReferences at h
  rw [Option.bind_eq_bind, Option.bind_eq_some_iff] at h
  obtain ⟨⟨resolved, found⟩, hresolved, h⟩ := h
  dsimp only at h
  split at h
  · cases h
    exact Or.inl rfl
  · next hfound =>
    cases h
    cases store with
    | none =>
      cases hresolved
      exact absurd rfl hfound
    | some store =>
      exact Or.inr ⟨resolved, rfl, resolvedMessages_rewrites hH hresolved⟩

theorem ContextStep.unspilled (hH : Harmless t P blocks)
    {messages' : List RuntimeMessage}
    (h : ContextStep messageId t messages messages')
    (hall : AllUnspilled messageId t P blocks messages) :
    AllUnspilled messageId t P blocks messages' := by
  cases h with
  | resolves store state h =>
    rcases resolve_cases messageId hH h with heq | ⟨r, heq, hr⟩
    · rw [heq]
      exact hall
    · rw [heq]
      exact (hall.of_rewrites hr).ensure
  | plans store state plan hfree h =>
    unfold applyContextWindowPlan at h
    dsimp only at h
    split at h
    · cases h
      exact hall
    · rw [Option.bind_eq_bind, Option.bind_eq_some_iff] at h
      obtain ⟨⟨updated, found, next⟩, hupdated, h⟩ := h
      cases h
      obtain ⟨rewritten, heq, hr⟩ :=
        foldlM_planMessage_rewrites hH hfree hupdated
      rw [List.nil_append] at heq
      rw [heq]
      exact (hall.of_rewrites hr).ensure
  | projects limit messages =>
    unfold applyProjectionPass
    cases limit with
    | none => exact hall
    | some limit =>
      dsimp only
      split
      · exact hall
      · split
        · exact hall
        · split
          · rw [selectedMessages_eq]
            refine AllUnspilled.ensure (hall.mono fun n hn _ => ?_)
            exact (staying_sublist messages limit).subset hn
          · exact hall
  | others h => exact hall.mono h

theorem run_unspilled (hH : Harmless t P blocks) {start : List RuntimeMessage}
    (hrun : Relation.ReflTransGen (ContextStep messageId t) start messages)
    (hstart : AllUnspilled messageId t P blocks start) :
    AllUnspilled messageId t P blocks messages := by
  induction hrun with
  | refl => exact hstart
  | tail _ hstep ih => exact hstep.unspilled hH ih

end Runs

-- ============= results

/-- The results of the tool call in the messages with the id. -/
def resultsOf (messageId t : String) (messages : List RuntimeMessage) :
    List ContentBlock :=
  (messages.filter fun n => n.messageId = messageId).flatMap fun n =>
    n.content.filter (isResultOf t)

theorem toolMark_blockOutline (role : MessageRole) (b : ContentBlock) :
    toolMark role (blockOutline b) = toolMark role b := by
  cases b with
  | _ => rfl

theorem placedIn_outline (n : RuntimeMessage) (i : Nat) :
    placedIn (outline n, i) = placedIn (n, i) := by
  unfold placedIn outline
  dsimp only
  rw [List.zipIdx_map, List.filterMap_map]
  refine List.filterMap_congr fun slot _ => ?_
  rw [Function.comp_apply]
  show Option.map _ (toolMark n.role (blockOutline slot.1)) = _
  rw [toolMark_blockOutline]
  rfl

theorem placedMarks_of_outline {messages' : List RuntimeMessage}
    (h : List.Forall₂ (fun n n' => outline n' = outline n) messages
      messages') : placedMarks messages' = placedMarks messages := by
  have hfrom : ∀ k, (messages'.zipIdx k).flatMap placedIn
      = (messages.zipIdx k).flatMap placedIn := by
    induction h with
    | nil => exact fun _ => rfl
    | @cons n n' ns ns' hn _ ih =>
      intro k
      rw [List.zipIdx_cons, List.zipIdx_cons, List.flatMap_cons,
        List.flatMap_cons, ih, ← placedIn_outline n', hn, placedIn_outline]
  exact hfrom 0

theorem keepBlock_blockOutline (state : PairingState) (position : Nat × Nat)
    (b : ContentBlock) :
    keepBlock state position (blockOutline b) = keepBlock state position b := by
  cases b with
  | _ => rfl

theorem results_repairedBlocks {n n' : RuntimeMessage}
    (h : List.Forall₂ (Like t) n.content n'.content) (state : PairingState)
    (i : Nat) :
    (repairedBlocks state (n', i)).filter (isResultOf t)
      = (repairedBlocks state (n, i)).filter (isResultOf t) := by
  unfold repairedBlocks
  dsimp only
  generalize n.content = content at h ⊢
  generalize n'.content = content' at h ⊢
  have hfrom : ∀ k, (((content'.zipIdx k).filter fun slot =>
        keepBlock state (i, slot.2) slot.1).map Prod.fst).filter (isResultOf t)
      = (((content.zipIdx k).filter fun slot =>
        keepBlock state (i, slot.2) slot.1).map Prod.fst).filter
          (isResultOf t) := by
    induction h with
    | nil => exact fun _ => rfl
    | @cons b b' bs bs' hb _ ih =>
      intro k
      have hkeep : keepBlock state (i, k) b' = keepBlock state (i, k) b := by
        rw [← keepBlock_blockOutline, hb.1, keepBlock_blockOutline]
      rw [List.zipIdx_cons, List.zipIdx_cons, List.filter_cons,
        List.filter_cons]
      dsimp only
      rw [hkeep]
      split
      · rw [List.map_cons, List.map_cons, List.filter_cons,
          List.filter_cons, ih, hb.isResultOf_eq]
        split
        · next hres => rw [hb.2 hres]
        · rfl
      · exact ih _
  exact hfrom 0

theorem resultsOf_ensure (messageId t : String)
    (messages : List RuntimeMessage) :
    resultsOf messageId t (ensureToolResultPairing messages)
      = messages.zipIdx.flatMap fun entry =>
          if entry.1.messageId = messageId then
            (repairedBlocks (observeMessages messages) entry).filter
              (isResultOf t)
          else [] := by
  unfold ensureToolResultPairing resultsOf
  generalize observeMessages messages = state
  generalize messages.zipIdx = entries
  induction entries with
  | nil => rfl
  | cons entry entries ih =>
    rw [List.filterMap_cons, List.flatMap_cons, ← ih]
    unfold repairMessage
    split
    · next hnone =>
      split at hnone
      · next hempty =>
        rw [List.isEmpty_iff.1 hempty, List.filter_nil, ite_self,
          List.nil_append]
      · cases hnone
    · next m hsome =>
      split at hsome
      · cases hsome
      · cases hsome
        rw [List.filter_cons]
        dsimp only
        by_cases hid : entry.1.messageId = messageId
        · rw [if_pos (decide_eq_true hid), if_pos hid, List.flatMap_cons]
        · rw [if_neg fun h => hid (of_decide_eq_true h), if_neg hid,
            List.nil_append]

theorem resultsOf_ensure_congr {messages' : List RuntimeMessage}
    (h : List.Forall₂ (fun n n' => outline n' = outline n
      ∧ (n.messageId = messageId →
        List.Forall₂ (Like t) n.content n'.content)) messages messages') :
    resultsOf messageId t (ensureToolResultPairing messages')
      = resultsOf messageId t (ensureToolResultPairing messages) := by
  rw [resultsOf_ensure, resultsOf_ensure, observeMessages_eq,
    observeMessages_eq, placedMarks_of_outline (h.imp fun _ _ hn => hn.1)]
  generalize (placedMarks messages).foldl observeMark .init = state
  have hfrom : ∀ k, ((messages'.zipIdx k).flatMap fun entry =>
        if entry.1.messageId = messageId then
          (repairedBlocks state entry).filter (isResultOf t)
        else [])
      = (messages.zipIdx k).flatMap fun entry =>
        if entry.1.messageId = messageId then
          (repairedBlocks state entry).filter (isResultOf t)
        else [] := by
    induction h with
    | nil => exact fun _ => rfl
    | @cons n n' ns ns' hn _ ih =>
      intro k
      have hid : n'.messageId = n.messageId :=
        (reduces_of_outline hn.1).messageId
      rw [List.zipIdx_cons, List.zipIdx_cons, List.flatMap_cons,
        List.flatMap_cons, ih]
      dsimp only
      rw [hid]
      split
      · next hm => rw [results_repairedBlocks (hn.2 hm)]
      · rfl
  exact hfrom 0

section Message

variable {messageId t : String} {createdAt : Datetime}
  {observedPaths : List String} {outcomes : List SurfacedOutcome}
  {m : RuntimeMessage}

def SurfacedOutcome.belongsTo (o : SurfacedOutcome) (t : String) : Prop :=
  o.resolvedCall.toolUseId = t ∨ o.resultBlock.toolUseId = t

section

variable (hm : toolResultMessage messageId createdAt observedPaths outcomes
    = some m)
include hm

theorem mem_content_toolResultMessage {b : ContentBlock} (hb : b ∈ m.content)
    :
    ∃ o ∈ outcomes, b = o.block := by
  unfold toolResultMessage at hm
  dsimp only at hm
  split at hm
  · cases hm
  · cases hm
    obtain ⟨o, ho, rfl⟩ := List.mem_map.1 hb
    exact ⟨o, (List.mem_insertionSort _).1 ho, rfl⟩

theorem content_of_mem {content : Payload} {isError : Bool}
    (hb : .toolResult t content isError ∈ m.content) :
    ∃ o ∈ outcomes, o.belongsTo t
      ∧ content = payloadOf (toolResultBlock o.result).content := by
  obtain ⟨o, ho, heq⟩ := mem_content_toolResultMessage hm hb
  injection heq with hid hcontent _
  refine ⟨o, ho, Or.inr hid.symm, ?_⟩
  rw [← o.surfaced]
  exact hcontent

theorem toolResultMessage_unspilled {P : Fields → Prop}
    (hP : ∀ o ∈ outcomes, o.belongsTo t → P (toolResultMetadataEntry o)) :
    Unspilled t P m.content m := by
  refine ⟨fun entries hentries fields hfields hid => ?_,
    fun b hb _ => hb⟩
  unfold toolResultMessage at hm
  dsimp only at hm
  split at hm
  · cases hm
  · cases hm
    cases hentries
    obtain ⟨o, ho, heq⟩ := List.mem_map.1 hfields
    cases heq
    rw [entryId_toolResultMetadataEntry] at hid
    exact hP o ((List.mem_insertionSort _).1 ho) (Or.inl hid)

theorem harmless_refers (h : ∀ o ∈ outcomes, o.belongsTo t → o.refers = false)
    :
    Harmless t (fun fields => topReference (.dict fields) = false)
      m.content := by
  refine ⟨fun fields hfields => textField_of_topReference hfields, rfl, ?_⟩
  intro content isError hb
  obtain ⟨o, ho, hbelongs, heq⟩ := content_of_mem hm hb
  have hsome := payloadField_payloadOf (toolResultBlock o.result).content
  rw [heq]
  unfold SurfacedOutcome.refers at h
  rw [h o ho hbelongs] at hsome
  exact Option.not_isSome_iff_eq_none.1 (Bool.not_eq_true _ |>.mpr hsome)

theorem harmless_mentions
    (h : ∀ o ∈ outcomes, o.belongsTo t → o.mentions = false) :
    Harmless t (fun fields => containsArtifactRef (.dict fields) = false)
      m.content := by
  have hrefers := harmless_refers hm fun o ho hbelongs =>
    topReference_of_contains (h o ho hbelongs)
  exact ⟨fun fields hfields => hrefers.entry fields
    (topReference_of_contains hfields), rfl, hrefers.content⟩

end

end Message

-- ============== result

/-- The results of `t` are those of the first message, and a resolution does
no more to them than the repair of the pairing does. -/
structure LeftAlone (messageId t : String) (m : RuntimeMessage)
    (messages out : List RuntimeMessage) : Prop where
  surfaced : ∀ b ∈ resultsOf messageId t messages, b ∈ m.content
  kept : resultsOf messageId t out = resultsOf messageId t messages
    ∨ resultsOf messageId t out
      = resultsOf messageId t (ensureToolResultPairing messages)

/-- Neither the results of `t` nor their entries pin the message. -/
structure Unpinned (messageId t : String) (messages : List RuntimeMessage) :
    Prop where
  blocks : ∀ b ∈ resultsOf messageId t messages,
    blockRefersToArtifact b = false
  entries : ∀ n ∈ messages, n.messageId = messageId →
    ∀ entries, toolResultEntries n.metadata = some entries →
      ∀ fields, .dict fields ∈ entries → entryId fields = t →
        containsArtifactRef (.dict fields) = false

theorem mem_resultsOf {b : ContentBlock}
    (hb : b ∈ resultsOf messageId t messages) :
    isResultOf t b = true
      ∧ ∃ n ∈ messages, n.messageId = messageId ∧ b ∈ n.content := by
  obtain ⟨n, hn, hmem⟩ := List.mem_flatMap.1 hb
  obtain ⟨hn, hid⟩ := List.mem_filter.1 hn
  obtain ⟨hmem, hresult⟩ := List.mem_filter.1 hmem
  exact ⟨hresult, n, hn, of_decide_eq_true hid, hmem⟩

theorem AllUnspilled.mem_blocks {P : Fields → Prop}
    {blocks : List ContentBlock}
    (h : AllUnspilled messageId t P blocks messages) {b : ContentBlock}
    (hb : b ∈ resultsOf messageId t messages) : b ∈ blocks := by
  obtain ⟨hresult, n, hn, hid, hmem⟩ := mem_resultsOf hb
  exact (h n hn hid).blocks b hmem hresult

/-- A result that surfaces without a reference is left alone by every
resolution in every run of the session, and where no `artifact_ref` occurs
in it at all it does not pin its message. -/
theorem unspilled_left_alone {messageId t : String} {createdAt : Datetime}
    {observedPaths : List String} {outcomes : List SurfacedOutcome}
    {m : RuntimeMessage}
    (hm : toolResultMessage messageId createdAt observedPaths outcomes
      = some m) (hrefers : ∀ o ∈ outcomes, o.belongsTo t → o.refers = false)
    {start messages : List RuntimeMessage}
    (hstart : ∀ n ∈ start, n.messageId = messageId → n = m)
    (hrun : Relation.ReflTransGen (ContextStep messageId t) start messages)
    {σ : Type} (store : Option (ArtifactStore σ)) (state : σ)
    {out : List RuntimeMessage} {effects : List EffectKind}
    (hout : resolveSpilloverReferences store state messages
      = some (out, effects)) :
    LeftAlone messageId t m messages out
      ∧ ((∀ o ∈ outcomes, o.belongsTo t → o.mentions = false) →
        Unpinned messageId t messages) := by
  have hfirst : ∀ {P : Fields → Prop},
      (∀ o ∈ outcomes, o.belongsTo t → P (toolResultMetadataEntry o)) →
      AllUnspilled messageId t P m.content start := by
    intro P hP n hn hid
    rw [hstart n hn hid]
    exact toolResultMessage_unspilled hm hP
  have hall := run_unspilled (harmless_refers hm hrefers) hrun
    (hfirst fun o ho hbelongs =>
      toolResultMetadataEntry_topReference (hrefers o ho hbelongs))
  refine ⟨⟨fun b hb => hall.mem_blocks hb, ?_⟩, fun hmentions => ⟨?_, ?_⟩⟩
  · rcases resolve_cases messageId (harmless_refers hm hrefers) hout with
      heq | ⟨resolved, heq, hr⟩
    · exact Or.inl (by rw [heq])
    · rw [heq]
      have hboth := (List.forall₂_and_left _ _).2 ⟨hall, hr⟩
      exact Or.inr (resultsOf_ensure_congr (hboth.imp fun n n' hn =>
        ⟨hn.2.1, fun hid => (hn.2.2 hid (hn.1 hid)).content⟩))
  · intro b hb
    have hmem := hall.mem_blocks hb
    have hresult := (mem_resultsOf hb).1
    cases b with
    | toolResult toolUseId content isError =>
      rw [of_decide_eq_true hresult] at hmem
      obtain ⟨o, ho, hbelongs, hcontent⟩ := content_of_mem hm hmem
      show payloadContainsArtifactRef content = false
      rw [hcontent, payloadContains_payloadOf]
      exact hmentions o ho hbelongs
    | _ => cases hresult
  · have hdeep := run_unspilled (harmless_mentions hm hmentions) hrun
      (hfirst fun o ho hbelongs =>
        toolResultMetadataEntry_contains (hmentions o ho hbelongs))
    exact fun n hn hid => (hdeep n hn hid).entries

-- ============ examples

def publishOutcome (output : PyVal) : SurfacedOutcome :=
  let result : ToolCallResult :=
    { callId := "call_1", toolName := "publish", status := .success
      output := output }
  { resolvedCall :=
      { envelope := ⟨"call_1", 0, "publish", "a1"⟩
        resolutionStatus := .executable, canonicalToolName := some "publish"
        toolDefinition := none, resolvedSemantics := none
        permissionDecision := none, schedulerLane := none, replayIndex := 0 }
    status := .success, terminalReason := .none, errorMessage := .none
    resultBlock := toolResultBlock result
    completionIndex := 0, replayIndex := 0
    result := result, resultSummary := none, surfaced := rfl }

def publishCall : RuntimeMessage :=
  { messageId := "a1", role := .assistant
    content := [.toolUse "call_1" "publish" (.mapping [])]
    createdAt := newYear, attachments := [], metadata := [] }

def publishMessage (output : PyVal) : RuntimeMessage :=
  { messageId := "u1", role := .user
    content := [(publishOutcome output).block]
    createdAt := newYear, attachments := []
    metadata := dict [("tool_results", .list
      [.dict (toolResultMetadataEntry (publishOutcome output))])] }

theorem toolResultMessage_publish (output : PyVal) :
    toolResultMessage "u1" newYear [] [publishOutcome output]
      = some (publishMessage output) := rfl

def noArtifacts : ArtifactStore Unit where
  loadArtifact _ _ := some none
  persistArtifact _ _ _ := none

def hasMapping : ContentBlock → Bool
  | .toolResult _ (.mapping _) _ => true
  | _ => false

/-- The tool's output names an artifact of its own. -/
def ownArtifact : PyVal :=
  .dict [(.str "artifact_ref", .str "report-7")]

theorem publishMessage_only (output : PyVal) :
    ∀ n ∈ [publishCall, publishMessage output], n.messageId = "u1" →
      n = publishMessage output := by
  intro n hn hid
  rcases List.mem_cons.1 hn with rfl | hn
  · exact absurd hid (by decide)
  · exact List.mem_singleton.1 hn

/-- An output that does not use the key stays as it is, whatever the store
has. -/
theorem plain_output_left_alone :
    LeftAlone "u1" "call_1" (publishMessage (.dict [(.str "page", .int 3)]))
        [publishCall, publishMessage (.dict [(.str "page", .int 3)])]
        [publishCall, publishMessage (.dict [(.str "page", .int 3)])]
      ∧ Unpinned "u1" "call_1"
        [publishCall, publishMessage (.dict [(.str "page", .int 3)])] := by
  have hplain : ∀ o ∈ [publishOutcome (.dict [(.str "page", .int 3)])],
      o.mentions = false := by
    intro o ho
    rw [List.mem_singleton.1 ho]
    rfl
  obtain ⟨halone, hpinned⟩ := unspilled_left_alone
    (toolResultMessage_publish (.dict [(.str "page", .int 3)]))
    (fun o ho _ => topReference_of_contains (hplain o ho))
    (publishMessage_only _) .refl (some noArtifacts) ()
    (show _ = some ([publishCall,
      publishMessage (.dict [(.str "page", .int 3)])], []) from rfl)
  exact ⟨halone, hpinned fun o ho _ => hplain o ho⟩

/-- The output of a tool that uses the key is replaced by a placeholder. -/
theorem own_artifact_replaced :
    ¬ ∀ (messageId t : String) (outcomes : List SurfacedOutcome)
      (m : RuntimeMessage) (start messages : List RuntimeMessage)
      (store : Option (ArtifactStore Unit)) (out : List RuntimeMessage)
      (effects : List EffectKind),
      toolResultMessage messageId newYear [] outcomes = some m →
      (∀ n ∈ start, n.messageId = messageId → n = m) →
      Relation.ReflTransGen (ContextStep messageId t) start messages →
      resolveSpilloverReferences store () messages = some (out, effects) →
      LeftAlone messageId t m messages out := by
  intro h
  have hrun : (resolveSpilloverReferences (some noArtifacts) ()
      [publishCall, publishMessage ownArtifact]).map (fun r =>
        (resultsOf "u1" "call_1" r.1).map hasMapping) = some [false] := by
    decide +kernel
  have hbefore : (resultsOf "u1" "call_1"
      [publishCall, publishMessage ownArtifact]).map hasMapping = [true]
      ∧ (resultsOf "u1" "call_1" (ensureToolResultPairing
        [publishCall, publishMessage ownArtifact])).map hasMapping
        = [true] := by
    decide +kernel
  obtain ⟨⟨out, effects⟩, hout, hshape⟩ := Option.map_eq_some_iff.1 hrun
  have halone := h "u1" "call_1" [publishOutcome ownArtifact] _ _ _ _ out
    effects (toolResultMessage_publish ownArtifact)
    (publishMessage_only ownArtifact) .refl hout
  dsimp only at hshape
  rcases halone.kept with hkept | hkept
  · rw [hkept, hbefore.1] at hshape
    cases hshape
  · rw [hkept, hbefore.2] at hshape
    cases hshape

end WeaveRuntime.ContextWindow
