/-
What a stream attempt assembles, as a machine of its own: closed blocks
and what the open one holds. The state a turn keeps refines it
(`assembly_observed`), so that facts about whole streams are facts about
the machine.

# Splitting a delta

A delta of a type that is open extends the open block; any other delta
opens one. So of a delta cut in pieces the first piece does what the
whole did, with less, and each later one finds a block of its type open
and makes up for it: opening and extending both end at `grown`
(`take_pieces`). Where the open block cannot be closed every piece raises
like the whole, and nothing moves.
-/
import WeaveRuntime.Jobs.Fields
import WeaveRuntime.TurnEngine.Stream

namespace WeaveRuntime.TurnEngine

open Lib Python Messages
open Jobs (Fields updateFields updateFields_nil
  updateFields_updateFields nodup_updateFields)
open Tools (setKey stringKeys)

-- ========== the events

namespace ModelStreamEvent

/-- The id a start of a block carries. -/
def openedId (event : ModelStreamEvent) : Option String :=
  textOr event.blockId (textOr (event.text "block_id")
    (textOr (event.text "tool_use_id") (event.text "call_id")))

def opened (event : ModelStreamEvent) (blockType : ContentBlockType) :
    PendingBlock where
  blockType := blockType
  blockId := event.openedId
  text := event.blockText
  toolName := event.toolName
  toolInput := event.toolInput

/-- The text a legacy delta carries. -/
def legacyText (event : ModelStreamEvent) : String :=
  (textOr (event.text "text") (some "")).getD ""

end ModelStreamEvent

/-- An event as it is observed, with the ids `uuid4` has ready for the
block that it closes and for the tool call that it makes. -/
structure Observation where
  event : ModelStreamEvent
  uuid : String
  uuid' : String

/-- The state after an observation, however it ends. -/
def StreamAttemptState.observed (s : StreamAttemptState) (o : Observation) :
    StreamAttemptState :=
  ((StreamAttemptState.observe o.event o.uuid o.uuid').run s).2

/-- The state after the observations of a stream. -/
def assembled (os : List Observation) : StreamAttemptState :=
  os.foldl StreamAttemptState.observed {}

-- ========= the machine

namespace PendingBlock

def used (block : PendingBlock) : PendingBlock :=
  match block.blockType with
  | .text | .thinking | .redactedThinking =>
    { blockType := block.blockType, text := block.text }
  | .toolUse => { block with text := "" }
  | .toolResult => { blockType := block.blockType }

/-- An open block with what a block of its type carries. -/
def grown (block more : PendingBlock) : PendingBlock :=
  { block with
    text := block.text ++ more.text
    toolName := more.toolName.or block.toolName
    toolInput := updateFields block.toolInput more.toolInput }

theorem used_blockType (block : PendingBlock) :
    block.used.blockType = block.blockType := by
  unfold used
  cases h : block.blockType <;> simp

theorem toBlock_used (block : PendingBlock) (uuid : String) :
    block.used.toBlock uuid = block.toBlock uuid := by
  unfold used toBlock
  cases block.blockType <;> rfl

theorem used_grown (block more : PendingBlock) :
    (block.used.grown more).used = (block.grown more).used := by
  unfold used grown
  cases block.blockType <;> simp

theorem used_extend (block : PendingBlock) (event : ModelStreamEvent) :
    (block.extend event).used
      = (block.used.grown (event.opened block.blockType)).used := by
  rw [used_grown]
  unfold used extend grown
  cases h : block.blockType <;> simp [h, ModelStreamEvent.opened]

end PendingBlock

/-- What has been assembled: the closed blocks and the open one. -/
structure Assembly where
  blocks : List ContentBlock := []
  pending : Option PendingBlock := none

namespace Assembly

def close (a : Assembly) (uuid : String) : Option Assembly :=
  match a.pending with
  | none => some a
  | some pending =>
    match pending.toBlock uuid with
    | .ok block => some { blocks := a.blocks ++ [block] }
    | .error _ => none

/-- The open block closed and another one opened. -/
def reopen (a : Assembly) (uuid : String) (block : PendingBlock) :
    Assembly :=
  match a.close uuid with
  | some closed => { closed with pending := some block.used }
  | none => a

/-- A delta: it grows the open block where that is of its type, and opens
its own block elsewhere. -/
def delta (a : Assembly) (uuid : String) (block : PendingBlock) :
    Assembly :=
  match a.pending with
  | some pending =>
    if pending.blockType = block.blockType then
      { a with pending := some (pending.grown block).used }
    else a.reopen uuid block
  | none => a.reopen uuid block

/-- What an observation does to what has been assembled. -/
def take (a : Assembly) (o : Observation) : Assembly :=
  match o.event.eventType with
  | .messageStart | .error => a
  | .contentBlockStop | .messageStop => (a.close o.uuid).getD a
  | .contentBlockStart =>
    match o.event.coercedBlockType with
    | .ok blockType => a.reopen o.uuid (o.event.opened blockType)
    | .error _ => (a.close o.uuid).getD a
  | .contentBlockDelta =>
    match o.event.coercedBlockType with
    | .ok blockType => a.delta o.uuid (o.event.opened blockType)
    | .error _ => a
  | .contentDelta =>
    if o.event.legacyText = "" then a
    else a.delta o.uuid { blockType := .text, text := o.event.legacyText }
  | .toolCall =>
    match a.close o.uuid, o.event.text "tool_name" with
    | some closed, some toolName =>
      { closed with blocks := closed.blocks ++ [.toolUse
          ((textOr (o.event.text "call_id")
            (textOr (o.event.text "tool_use_id")
              (some o.uuid'))).getD o.uuid')
          toolName (.mapping (payloadFields o.event.toolInput))] }
    | some closed, none => closed
    | none, _ => a

end Assembly

/-- What a state has assembled. -/
def StreamAttemptState.assembly (s : StreamAttemptState) : Assembly where
  blocks := s.blocks
  pending := s.pendingBlock.map PendingBlock.used

-- ====== the refinement

section Refinement

open StreamAttemptState

/-- Closing the open block in the state is closing it in what has been
assembled; where it raises the state stays. -/
theorem run_finalizePendingBlock (s : StreamAttemptState) (uuid : String) :
    (∃ t, (finalizePendingBlock uuid).run s = (.ok (), t)
        ∧ s.assembly.close uuid = some t.assembly ∧ t.pendingBlock = none)
      ∨ (∃ e, (finalizePendingBlock uuid).run s = (.error e, s))
        ∧ s.assembly.close uuid = none := by
  cases hp : s.pendingBlock with
  | none =>
    refine Or.inl ⟨s, ?_, ?_, hp⟩
    · simp [finalizePendingBlock, hp]
    · simp [assembly, Assembly.close, hp]
  | some pending =>
    cases hb : pending.toBlock uuid with
    | ok block =>
      refine Or.inl ⟨{ s.appendBlock block with pendingBlock := none },
        ?_, ?_, rfl⟩
      · simp [finalizePendingBlock, hp, hb]
      · simp [assembly, Assembly.close, hp, PendingBlock.toBlock_used,
          hb, StreamAttemptState.appendBlock]
    | error e =>
      refine Or.inr ⟨⟨e, ?_⟩, ?_⟩
      · simp [finalizePendingBlock, hp, hb]
      · simp [assembly, Assembly.close, hp, PendingBlock.toBlock_used,
          hb]

theorem assembly_finalizePendingBlock (s : StreamAttemptState)
    (uuid : String) : ((finalizePendingBlock uuid).run s).2.assembly
      = (s.assembly.close uuid).getD s.assembly := by
  obtain ⟨t, hrun, hclose, -⟩ | ⟨⟨e, hrun⟩, hclose⟩ :=
    run_finalizePendingBlock s uuid
  · rw [hrun, hclose]
    rfl
  · rw [hrun, hclose]
    rfl

theorem assembly_startBlock (s : StreamAttemptState)
    (event : ModelStreamEvent) (uuid : String) :
    ((startBlock event uuid).run s).2.assembly
      = match event.coercedBlockType with
        | .ok blockType => s.assembly.reopen uuid (event.opened blockType)
        | .error _ => (s.assembly.close uuid).getD s.assembly := by
  obtain ⟨t, hrun, hclose, hpending⟩ | ⟨⟨e, hrun⟩, hclose⟩ :=
    run_finalizePendingBlock s uuid
  · unfold startBlock
    rw [Method.run_bind_of_ok hrun]
    cases event.coercedBlockType with
    | ok blockType =>
      simp only [Assembly.reopen, hclose]
      rfl
    | error e => simp [hclose]
  · unfold startBlock
    rw [Method.run_bind_of_error hrun]
    cases event.coercedBlockType with
    | ok blockType => simp [Assembly.reopen, hclose]
    | error e => simp [hclose]

theorem assembly_applyBlockDelta (s : StreamAttemptState)
    (event : ModelStreamEvent) (uuid : String) :
    ((applyBlockDelta event uuid).run s).2.assembly
      = match event.coercedBlockType with
        | .ok blockType => s.assembly.delta uuid (event.opened blockType)
        | .error _ => s.assembly := by
  unfold applyBlockDelta
  have hstart := assembly_startBlock s event uuid
  cases hk : event.coercedBlockType with
  | error e => simp
  | ok blockType =>
    rw [hk] at hstart
    rw [Method.run_lift_ok_bind, Method.run_read_bind]
    cases hp : s.pendingBlock with
    | none => simpa [Assembly.delta, assembly, hp] using hstart
    | some pending =>
      by_cases h : pending.blockType = blockType
      · have hextend := pending.used_extend event
        rw [h] at hextend
        simp [Assembly.delta, assembly, hp, PendingBlock.used_blockType,
          ModelStreamEvent.opened, h, hextend]
      · simpa [Assembly.delta, assembly, hp, PendingBlock.used_blockType,
          ModelStreamEvent.opened, h] using hstart

theorem assembly_mergeTerminalFields (s : StreamAttemptState)
    (event : ModelStreamEvent) :
    (s.mergeTerminalFields event).assembly = s.assembly := by
  unfold mergeTerminalFields
  cases h : event.terminal with
  | none => rfl
  | some terminal => rfl

theorem delta_of_other {s : StreamAttemptState} {pending : PendingBlock}
    (uuid : String) {block : PendingBlock}
    (hp : s.pendingBlock = some pending)
    (h : pending.blockType ≠ block.blockType) :
    s.assembly.delta uuid block = s.assembly.reopen uuid block := by
  simp [Assembly.delta, assembly, hp, PendingBlock.used_blockType, h]

theorem assembly_appendLegacyText (s : StreamAttemptState)
    (event : ModelStreamEvent) (uuid : String) :
    ((appendLegacyText event uuid).run s).2.assembly
      = if event.legacyText = "" then s.assembly
        else s.assembly.delta uuid
          { blockType := .text, text := event.legacyText } := by
  unfold appendLegacyText
  change ((if event.legacyText = "" then pure () else _ : Op Unit).run
    s).2.assembly = _
  by_cases htext : event.legacyText = ""
  · rw [if_pos htext, if_pos htext]
    rfl
  · rw [if_neg htext, if_neg htext, Method.run_read_bind]
    cases hp : s.pendingBlock with
    | none =>
      simp [Assembly.delta, Assembly.reopen, Assembly.close, assembly, hp,
        ModelStreamEvent.legacyText]
    | some pending =>
      by_cases h : pending.blockType = .text
      · simp [Assembly.delta, assembly, hp, h,
          ModelStreamEvent.legacyText, PendingBlock.used,
          PendingBlock.grown]
      · rw [delta_of_other uuid hp h]
        simp only [if_neg h]
        obtain ⟨t, hrun, hclose, -⟩ | ⟨⟨e, hrun⟩, hclose⟩ :=
          run_finalizePendingBlock s uuid
        · rw [Method.run_bind_of_ok hrun]
          simp only [Assembly.reopen, hclose]
          rfl
        · rw [Method.run_bind_of_error hrun]
          simp only [Assembly.reopen, hclose]

theorem assembly_appendLegacyToolCall (s : StreamAttemptState)
    (o : Observation) (hkind : o.event.eventType = .toolCall) :
    ((appendLegacyToolCall o.event o.uuid o.uuid').run s).2.assembly
      = s.assembly.take o := by
  unfold appendLegacyToolCall Assembly.take
  obtain ⟨t, hrun, hclose, hpending⟩ | ⟨⟨e, hrun⟩, hclose⟩ :=
    run_finalizePendingBlock s o.uuid
  · rw [Method.run_bind_of_ok hrun]
    cases hname : o.event.text "tool_name" with
    | none => simp [hkind, hclose]
    | some toolName =>
      simp only [hkind, hclose, Method.run_write]
      simp [assembly, StreamAttemptState.appendBlock, hpending]
  · rw [Method.run_bind_of_error hrun]
    simp [hkind, hclose]

/-- What has been assembled moves as the machine does. -/
theorem assembly_observed (s : StreamAttemptState) (o : Observation) :
    (s.observed o).assembly = s.assembly.take o := by
  have hmerged := assembly_mergeTerminalFields s o.event
  unfold observed observe Assembly.take
  rw [Method.run_write_bind]
  cases hkind : o.event.eventType with
  | contentBlockStart =>
    rw [← hmerged]
    exact assembly_startBlock _ o.event o.uuid
  | contentBlockDelta =>
    rw [← hmerged]
    exact assembly_applyBlockDelta _ o.event o.uuid
  | contentDelta =>
    rw [← hmerged]
    exact assembly_appendLegacyText _ o.event o.uuid
  | contentBlockStop =>
    rw [← hmerged]
    exact assembly_finalizePendingBlock _ o.uuid
  | messageStop =>
    rw [Method.run_write_bind, ← hmerged]
    exact assembly_finalizePendingBlock { s.mergeTerminalFields o.event with
      messageStopped := true
      pendingToolUseClosedAtMessageStop :=
        (s.mergeTerminalFields o.event).pendingToolUseClosedAtMessageStop
          || (s.mergeTerminalFields o.event).pendingToolUse } o.uuid
  | toolCall =>
    have hcall := assembly_appendLegacyToolCall
      (s.mergeTerminalFields o.event) o hkind
    rw [hmerged] at hcall
    unfold Assembly.take at hcall
    rw [hkind] at hcall
    exact hcall
  | _ => exact hmerged

end Refinement

-- ========== the splits

namespace PendingBlock

theorem used_used (block : PendingBlock) : block.used.used = block.used := by
  unfold used
  cases h : block.blockType <;> simp

/-- Only what its type uses is taken from a delta. -/
theorem grown_used {block more : PendingBlock}
    (h : block.blockType = more.blockType) :
    (block.grown more.used).used = (block.grown more).used := by
  unfold used grown
  cases hmore : more.blockType <;> simp [h, hmore]

theorem grown_grown (block : PendingBlock) {more : PendingBlock}
    (rest : PendingBlock) (h : (more.toolInput.map (·.1)).Nodup) :
    (block.grown more).grown rest = block.grown (more.grown rest) := by
  unfold grown
  rw [updateFields_updateFields _ _ h, String.append_assoc,
    Option.or_assoc]

end PendingBlock

namespace Assembly

theorem reopen_used (a : Assembly) (uuid : String) (block : PendingBlock) :
    a.reopen uuid block.used = a.reopen uuid block := by
  unfold reopen
  rw [PendingBlock.used_used]

theorem delta_used (a : Assembly) (uuid : String) (block : PendingBlock) :
    a.delta uuid block.used = a.delta uuid block := by
  unfold delta
  rw [PendingBlock.used_blockType, reopen_used]
  cases a.pending with
  | none => rfl
  | some pending =>
    by_cases h : pending.blockType = block.blockType
    · simp only [if_pos h, PendingBlock.grown_used h]
    · simp only [if_neg h]

variable {block : PendingBlock}

theorem delta_of_same {a : Assembly} {pending : PendingBlock} (uuid : String)
    (hp : a.pending = some pending)
    (h : pending.blockType = block.blockType) :
    a.delta uuid block
      = { a with pending := some (pending.grown block).used } := by
  unfold delta
  simp only [hp, if_pos h]

theorem delta_of_differs {a : Assembly} (uuid : String)
    (h : ∀ pending, a.pending = some pending →
      pending.blockType ≠ block.blockType) :
    a.delta uuid block = a.reopen uuid block := by
  unfold delta
  cases hp : a.pending with
  | none => rfl
  | some pending => simp only [if_neg (h pending hp)]

/-- A block that a delta opened is of the type of the next delta; and where
the open block could not be closed for the first, it cannot for the
second. -/
theorem reopen_delta {a : Assembly} (uuid : String) {more : PendingBlock}
    (htype : more.blockType = block.blockType)
    (h : ∀ pending, a.pending = some pending →
      pending.blockType ≠ block.blockType) :
    (a.reopen uuid block).delta uuid more
      = a.reopen uuid (block.grown more) := by
  cases hc : a.close uuid with
  | some closed =>
    have hopened : a.reopen uuid block
        = { closed with pending := some block.used } := by
      simp only [reopen, hc]
    have hsame : block.used.blockType = more.blockType :=
      block.used_blockType.trans htype.symm
    rw [hopened, delta_of_same uuid rfl hsame,
      PendingBlock.used_grown]
    simp only [reopen, hc]
  | none =>
    have hstay : ∀ b, a.reopen uuid b = a := by
      intro b
      simp only [reopen, hc]
    rw [hstay, hstay, delta_of_differs uuid (htype.symm ▸ h), hstay]

theorem delta_delta (a : Assembly) (uuid : String) {more : PendingBlock}
    (htype : more.blockType = block.blockType)
    (h : (block.toolInput.map (·.1)).Nodup) :
    (a.delta uuid block).delta uuid more
      = a.delta uuid (block.grown more) := by
  by_cases hsame : ∃ pending, a.pending = some pending
      ∧ pending.blockType = block.blockType
  · obtain ⟨pending, hp, hs⟩ := hsame
    have hthen : (pending.grown block).used.blockType = more.blockType :=
      (PendingBlock.used_blockType _).trans (hs.trans htype.symm)
    rw [delta_of_same uuid hp hs, delta_of_same uuid rfl hthen,
      PendingBlock.used_grown, PendingBlock.grown_grown _ _ h]
    have hwhole : pending.blockType = (block.grown more).blockType := hs
    exact (delta_of_same uuid hp hwhole).symm
  · have hdiffers : ∀ pending, a.pending = some pending →
        pending.blockType ≠ block.blockType :=
      fun pending hp hs => hsame ⟨pending, hp, hs⟩
    have hgrown : a.delta uuid (block.grown more)
        = a.reopen uuid (block.grown more) := delta_of_differs uuid hdiffers
    rw [delta_of_differs uuid hdiffers, hgrown]
    exact reopen_delta uuid htype hdiffers

theorem foldl_delta (a : Assembly) (uuid : String) {rest : List PendingBlock}
    (htype : ∀ b ∈ rest, b.blockType = block.blockType)
    (h : (block.toolInput.map (·.1)).Nodup) :
    rest.foldl (fun a b => a.delta uuid b) (a.delta uuid block)
      = a.delta uuid (rest.foldl PendingBlock.grown block) := by
  induction rest generalizing block with
  | nil => rfl
  | cons more rest ih =>
    rw [List.foldl_cons, List.foldl_cons,
      delta_delta a uuid (htype more List.mem_cons_self) h]
    refine ih ?_ (nodup_updateFields more.toolInput h)
    intro b hb
    exact htype b (List.mem_cons_of_mem _ hb)

def legacy (a : Assembly) (uuid text : String) : Assembly :=
  if text = "" then a else a.delta uuid { blockType := .text, text := text }

theorem legacy_legacy (a : Assembly) (uuid text more : String) :
    (a.legacy uuid text).legacy uuid more = a.legacy uuid (text ++ more) := by
  unfold legacy
  by_cases ht : text = ""
  · simp [ht]
  · by_cases hm : more = ""
    · simp [hm]
    · have hboth : text ++ more ≠ "" := by simp [ht]
      rw [if_neg ht, if_neg hm, if_neg hboth]
      exact delta_delta a uuid rfl List.nodup_nil

theorem foldl_legacy (a : Assembly) (uuid text : String)
    (texts : List String) :
    texts.foldl (fun a t => a.legacy uuid t) (a.legacy uuid text)
      = a.legacy uuid (texts.foldl (· ++ ·) text) := by
  induction texts generalizing text with
  | nil => rfl
  | cons more texts ih =>
    rw [List.foldl_cons, List.foldl_cons, legacy_legacy]
    exact ih (text ++ more)

end Assembly

/-- Deltas that carry between them what one carries. At most one of them
closes a block, so `uuid4` has the same id ready for each. -/
inductive Splits (whole : Observation) (pieces : List Observation) : Prop
  | legacyText
      (hkind : ∀ o ∈ whole :: pieces,
        o.event.eventType = .contentDelta ∧ o.uuid = whole.uuid)
      (htext : whole.event.legacyText
        = String.join (pieces.map (·.event.legacyText)))
  | text (blockType : ContentBlockType)
      (htype : blockType = .text ∨ blockType = .thinking
        ∨ blockType = .redactedThinking)
      (hne : pieces ≠ [])
      (hkind : ∀ o ∈ whole :: pieces,
        o.event.eventType = .contentBlockDelta
          ∧ o.event.coercedBlockType = .ok blockType
          ∧ o.uuid = whole.uuid)
      (htext : whole.event.blockText
        = String.join (pieces.map (·.event.blockText)))
  | toolInput
      (hfirst : pieces.head?.map (·.event.openedId)
        = some whole.event.openedId)
      (hkind : ∀ o ∈ whole :: pieces,
        o.event.eventType = .contentBlockDelta
          ∧ o.event.coercedBlockType = .ok .toolUse
          ∧ o.uuid = whole.uuid)
      (hname : whole.event.toolName = pieces.foldl
        (fun name o => o.event.toolName.or name) none)
      (hinput : whole.event.toolInput = pieces.foldl
        (fun input o => updateFields input o.event.toolInput) [])

theorem nodup_setKey {items : Fields} (key : String) (value : PyVal)
    (h : (items.map (·.1)).Nodup) :
    ((setKey items key value).map (·.1)).Nodup := by
  unfold setKey
  by_cases hany : (items.any fun e => e.1 = .str key) = true
  · rw [if_pos hany]
    have hkeys : (items.map fun e =>
        if e.1 = .str key then (.str key, value) else e).map (·.1)
          = items.map (·.1) := by
      rw [List.map_map]
      refine List.map_congr_left fun e _ => ?_
      simp only [Function.comp]
      split
      · next he => exact he.symm
      · rfl
    rw [hkeys]
    exact h
  · rw [if_neg hany, List.map_append, List.nodup_append]
    refine ⟨h, List.nodup_singleton _, ?_⟩
    intro name hname other hother heq
    obtain ⟨e, he, rfl⟩ := List.mem_map.1 hname
    rw [List.map_singleton, List.mem_singleton] at hother
    refine hany (List.any_eq_true.2 ⟨e, he, ?_⟩)
    exact decide_eq_true (heq.trans hother)

theorem nodup_stringKeys (items : Fields) :
    ((stringKeys items).map (·.1)).Nodup := by
  have hfold : ∀ acc : Fields, (acc.map (·.1)).Nodup →
      ((items.foldl (fun acc e => setKey acc e.1.text e.2) acc).map
        (·.1)).Nodup := by
    induction items with
    | nil => exact fun _ h => h
    | cons e rest ih =>
      exact fun acc h => ih _ (nodup_setKey e.1.text e.2 h)
  exact hfold [] List.nodup_nil

theorem nodup_toolInput (event : ModelStreamEvent) :
    (event.toolInput.map (·.1)).Nodup := by
  have hmapping : ∀ value, ((mappingValue value).map (·.1)).Nodup := by
    intro value
    cases value with
    | dict items => exact nodup_stringKeys items
    | _ => exact List.nodup_nil
  unfold ModelStreamEvent.toolInput fieldsOr
  by_cases h : mappingValue (event.get "tool_input") = []
  · rw [if_pos h]
    exact hmapping _
  · rw [if_neg h]
    exact hmapping _

variable {blockType : ContentBlockType} {pieces : List Observation}
  {s : StreamAttemptState}

theorem take_blockDelta {o : Observation}
    (hkind : o.event.eventType = .contentBlockDelta)
    (htype : o.event.coercedBlockType = .ok blockType) (a : Assembly) :
    a.take o = a.delta o.uuid (o.event.opened blockType) := by
  simp only [Assembly.take, hkind, htype]

theorem take_legacyText {o : Observation}
    (hkind : o.event.eventType = .contentDelta) (a : Assembly) :
    a.take o = a.legacy o.uuid o.event.legacyText := by
  simp only [Assembly.take, hkind, Assembly.legacy]

theorem foldl_take_blockDelta {uuid : String}
    (h : ∀ o ∈ pieces, o.event.eventType = .contentBlockDelta
      ∧ o.event.coercedBlockType = .ok blockType ∧ o.uuid = uuid)
    (a : Assembly) :
    pieces.foldl Assembly.take a
      = (pieces.map (·.event.opened blockType)).foldl
          (fun a b => a.delta uuid b) a := by
  induction pieces generalizing a with
  | nil => rfl
  | cons o rest ih =>
    obtain ⟨hkind, htype, huuid⟩ := h o List.mem_cons_self
    rw [List.foldl_cons, List.map_cons, List.foldl_cons,
      take_blockDelta hkind htype, huuid]
    exact ih (fun o ho => h o (List.mem_cons_of_mem _ ho)) _

theorem foldl_grown (block : PendingBlock) (rest : List PendingBlock) :
    rest.foldl PendingBlock.grown block
      = { block with
          text := rest.foldl (fun text b => text ++ b.text) block.text
          toolName := rest.foldl (fun name b => b.toolName.or name)
            block.toolName
          toolInput := rest.foldl
            (fun input b => updateFields input b.toolInput)
            block.toolInput } := by
  induction rest generalizing block with
  | nil => rfl
  | cons more rest ih =>
    rw [List.foldl_cons, ih]
    rfl

theorem take_blockPieces {whole : Observation} (hne : pieces ≠ [])
    (hkind : ∀ o ∈ whole :: pieces,
      o.event.eventType = .contentBlockDelta
        ∧ o.event.coercedBlockType = .ok blockType ∧ o.uuid = whole.uuid)
    (hgrow : ∀ o rest, pieces = o :: rest →
      ((rest.map (·.event.opened blockType)).foldl PendingBlock.grown
          (o.event.opened blockType)).used
        = (whole.event.opened blockType).used) (a : Assembly) :
    pieces.foldl Assembly.take a = a.take whole := by
  obtain ⟨hdelta, hcoerced, -⟩ := hkind whole List.mem_cons_self
  rw [foldl_take_blockDelta fun o ho => hkind o (List.mem_cons_of_mem _ ho),
    take_blockDelta hdelta hcoerced]
  cases pieces with
  | nil => exact absurd rfl hne
  | cons o rest =>
    have htypes : ∀ b ∈ rest.map (·.event.opened blockType),
        b.blockType = (o.event.opened blockType).blockType := by
      intro b hb
      obtain ⟨p, -, rfl⟩ := List.mem_map.1 hb
      rfl
    rw [List.map_cons, List.foldl_cons,
      Assembly.foldl_delta a whole.uuid htypes (nodup_toolInput o.event),
      ← Assembly.delta_used, hgrow o rest rfl, Assembly.delta_used]

theorem take_pieces {whole : Observation} (h : Splits whole pieces)
    (a : Assembly) : pieces.foldl Assembly.take a = a.take whole := by
  cases h with
  | legacyText hkind htext =>
    have hlegacy : ∀ (ps : List Observation) (a : Assembly),
        (∀ o ∈ ps, o.event.eventType = .contentDelta
          ∧ o.uuid = whole.uuid) →
        ps.foldl Assembly.take a
          = (ps.map (·.event.legacyText)).foldl
              (fun a t => a.legacy whole.uuid t) a := by
      intro ps
      induction ps with
      | nil => exact fun _ _ => rfl
      | cons o ps ih =>
        intro a hps
        obtain ⟨hdelta, huuid⟩ := hps o List.mem_cons_self
        rw [List.foldl_cons, List.map_cons, List.foldl_cons,
          take_legacyText hdelta, huuid]
        exact ih _ fun o ho => hps o (List.mem_cons_of_mem _ ho)
    rw [hlegacy pieces a fun o ho => hkind o (List.mem_cons_of_mem _ ho),
      take_legacyText (hkind whole List.mem_cons_self).1, htext]
    exact Assembly.foldl_legacy a whole.uuid "" _
  | text blockType htype hne hkind htext =>
    refine take_blockPieces hne hkind ?_ a
    intro o rest hpieces
    subst hpieces
    rw [List.map_cons, String.join, List.foldl_cons, String.empty_append]
      at htext
    obtain rfl | rfl | rfl := htype
    all_goals
      rw [foldl_grown]
      simp [PendingBlock.used, ModelStreamEvent.opened, htext,
        List.foldl_map]
  | toolInput hfirst hkind hname hinput =>
    refine take_blockPieces ?_ hkind ?_ a
    · rintro rfl
      cases hfirst
    · intro o rest hpieces
      subst hpieces
      rw [List.foldl_cons, Option.or_none] at hname
      rw [List.foldl_cons, updateFields_nil (nodup_toolInput o.event)]
        at hinput
      have hid : o.event.openedId = whole.event.openedId := by
        simpa using hfirst
      rw [foldl_grown]
      simp [PendingBlock.used, ModelStreamEvent.opened, hname, hinput,
        hid, List.foldl_map]

-- ============ the runs

/-- What happens to the state of an attempt. -/
inductive StreamAction where
  | observe (o : Observation)
  | drain

/-- An attempt so far, with what the drains returned. -/
structure Collected where
  state : StreamAttemptState := {}
  drains : List (List ToolCall) := []

def Collected.act (c : Collected) : StreamAction → Collected
  | .observe o => { c with state := c.state.observed o }
  | .drain =>
    { state := c.state.drained
      drains := c.drains ++ [c.state.newToolCalls] }

def collected (actions : List StreamAction) : Collected :=
  actions.foldl Collected.act {}

def StreamAction.observation? : StreamAction → Option Observation
  | .observe o => some o
  | .drain => none

def observations (actions : List StreamAction) : List Observation :=
  actions.filterMap StreamAction.observation?

theorem assembly_foldl_act (actions : List StreamAction) (c : Collected) :
    (actions.foldl Collected.act c).state.assembly
      = (observations actions).foldl Assembly.take c.state.assembly := by
  induction actions generalizing c with
  | nil => rfl
  | cons action actions ih =>
    rw [List.foldl_cons, ih]
    cases action with
    | observe o =>
      have hstep : (c.act (.observe o)).state.assembly
          = c.state.assembly.take o := assembly_observed c.state o
      rw [hstep]
      rfl
    | drain => rfl

theorem assembly_collected (actions : List StreamAction) :
    (collected actions).state.assembly
      = (observations actions).foldl Assembly.take {} :=
  assembly_foldl_act actions {}

theorem blocks_of_assembly {t : StreamAttemptState}
    (h : s.assembly = t.assembly) : s.blocks = t.blocks :=
  congrArg Assembly.blocks h

/-- What holds of an attempt at every moment: its tool calls are those of
its blocks, and they have been drained or are next. -/
structure Accounted (c : Collected) : Prop where
  matched : c.state.Matched
  drained : c.drains.flatten ++ c.state.newToolCalls = c.state.toolCalls

theorem accounted_act {c : Collected} (action : StreamAction)
    (h : Accounted c) : Accounted (c.act action) := by
  cases action with
  | observe o =>
    have hgrows : c.state.Grows (c.state.observed o) :=
      StreamAttemptState.observe_grows o.event o.uuid o.uuid' c.state
    refine ⟨h.matched.grows hgrows, ?_⟩
    obtain ⟨bs, -, hcalls, hnew⟩ := hgrows.appended
    calc c.drains.flatten ++ (c.state.observed o).newToolCalls
        = (c.drains.flatten ++ c.state.newToolCalls)
            ++ toolCallsFromMessage bs := by
          rw [hnew, List.append_assoc]
      _ = (c.state.observed o).toolCalls := by rw [h.drained, hcalls]
  | drain =>
    refine ⟨h.matched, ?_⟩
    calc (c.drains ++ [c.state.newToolCalls]).flatten ++ []
        = c.drains.flatten ++ c.state.newToolCalls := by simp
      _ = c.state.toolCalls := h.drained

theorem accounted_collected (actions : List StreamAction) :
    Accounted (collected actions) := by
  unfold collected
  induction actions using List.reverseRecOn with
  | nil => exact ⟨rfl, rfl⟩
  | append_singleton actions action ih =>
    rw [List.foldl_append]
    exact accounted_act action ih

-- ======= the partition

/-- What `finalize` returns divides the blocks of the state: they are
committed, with their tool calls, or discarded, with none. -/
structure Divides (s : StreamAttemptState)
    (f : StreamAttemptState.Finalized) : Prop where
  every : ∃ rest, f.committedBlocks ++ f.discardedBlocks = s.blocks ++ rest
  whole : f.committedBlocks = s.blocks ∨ f.committedBlocks = []
  calls : f.toolCalls = toolCallsFromMessage f.committedBlocks
  together : f.toolCalls ≠ [] → f.committedBlocks ≠ []

theorem divides_of_calls {f : StreamAttemptState.Finalized} (every : ∃ rest,
      f.committedBlocks ++ f.discardedBlocks = s.blocks ++ rest)
    (whole : f.committedBlocks = s.blocks ∨ f.committedBlocks = [])
    (calls : f.toolCalls = toolCallsFromMessage f.committedBlocks) :
    Divides s f := by
  refine ⟨every, whole, calls, ?_⟩
  intro hcalls hnone
  rw [calls, hnone] at hcalls
  exact hcalls rfl

/-- A tool result is open and the message has not stopped: the one place
where `finalize` raises. -/
def Unfinishable (s : StreamAttemptState) : Prop :=
  s.messageStopped = false
    ∧ ∃ pending, s.pendingBlock = some pending
      ∧ pending.blockType = .toolResult

theorem discardedPending_of_finishable (hstop : s.messageStopped = false)
    (h : ¬ Unfinishable s) (uuid : String) :
    ∃ rest, s.discardedPending uuid = .ok rest := by
  unfold StreamAttemptState.discardedPending
  cases hp : s.pendingBlock with
  | none => exact ⟨[], rfl⟩
  | some pending =>
    have htype : pending.blockType ≠ .toolResult :=
      fun ht => h ⟨hstop, pending, hp, ht⟩
    cases hkind : pending.blockType with
    | toolResult => exact absurd hkind htype
    | _ => exact ⟨_, by simp [PendingBlock.toBlock, hkind]; rfl⟩

theorem finalize_divides (hs : s.Matched) (h : ¬ Unfinishable s)
    (abortReason : Option String) (preserveObservedToolUses : Bool)
    (uuid : String) :
    ∃ f, s.finalize abortReason preserveObservedToolUses uuid = .ok f
      ∧ Divides s f := by
  unfold StreamAttemptState.finalize
  cases hstop : s.messageStopped with
  | true =>
    exact ⟨_, rfl, divides_of_calls ⟨[], rfl⟩ (Or.inl rfl) hs⟩
  | false =>
    obtain ⟨rest, hrest⟩ := discardedPending_of_finishable hstop h uuid
    rw [hrest]
    cases hkeep : preserveObservedToolUses && !s.toolCalls.isEmpty with
    | true =>
      exact ⟨_, rfl, divides_of_calls ⟨rest, rfl⟩ (Or.inl rfl) hs⟩
    | false =>
      exact ⟨_, rfl, divides_of_calls ⟨rest, rfl⟩ (Or.inr rfl) rfl⟩

theorem finalize_raises (h : Unfinishable s) (abortReason : Option String)
    (preserveObservedToolUses : Bool) (uuid : String) :
    ∃ e, s.finalize abortReason preserveObservedToolUses uuid = .error e := by
  obtain ⟨hstop, pending, hp, hkind⟩ := h
  have hdiscard : ∃ e, s.discardedPending uuid = .error e := by
    unfold StreamAttemptState.discardedPending PendingBlock.toBlock
    rw [hp]
    simp only [hkind]
    exact ⟨_, rfl⟩
  obtain ⟨e, he⟩ := hdiscard
  refine ⟨e, ?_⟩
  unfold StreamAttemptState.finalize
  rw [hstop, he]
  cases preserveObservedToolUses && !s.toolCalls.isEmpty <;> rfl

-- ========== the claims

/-- At every moment of an attempt: its tool calls are the tool uses among
its blocks, the drains have returned them once each, cutting deltas in
pieces leaves the blocks as they are, and `finalize` divides the blocks,
but for an open tool result, where it raises. -/
theorem stream_assembled_faithfully (actions : List StreamAction) :
    (collected actions).state.toolCalls
        = toolCallsFromMessage (collected actions).state.blocks
      ∧ (collected (actions ++ [.drain])).drains.flatten
        = (collected actions).state.toolCalls
      ∧ (∀ actions' before whole pieces after, Splits whole pieces →
        observations actions = before ++ whole :: after →
        observations actions' = before ++ pieces ++ after →
        (collected actions').state.blocks
          = (collected actions).state.blocks)
      ∧ ∀ abortReason preserveObservedToolUses uuid,
        (¬ Unfinishable (collected actions).state →
          ∃ f, (collected actions).state.finalize abortReason
              preserveObservedToolUses uuid = .ok f
            ∧ Divides (collected actions).state f)
        ∧ (Unfinishable (collected actions).state →
          ∃ e, (collected actions).state.finalize abortReason
            preserveObservedToolUses uuid = .error e) := by
  have haccounted := accounted_collected actions
  refine ⟨haccounted.matched, ?_, ?_, ?_⟩
  · have hlast := (accounted_collected (actions ++ [.drain])).drained
    unfold collected at hlast ⊢
    rw [List.foldl_append] at hlast ⊢
    exact (List.append_nil _).symm.trans hlast
  · intro actions' before whole pieces after hsplits hone hmany
    refine blocks_of_assembly ?_
    rw [assembly_collected, assembly_collected, hone, hmany,
      List.foldl_append, List.foldl_append, List.foldl_append,
      take_pieces hsplits, List.foldl_cons]
  · intro abortReason preserveObservedToolUses uuid
    refine ⟨fun h => ?_, fun h => ?_⟩
    · exact finalize_divides haccounted.matched h abortReason
        preserveObservedToolUses uuid
    · exact finalize_raises h abortReason preserveObservedToolUses uuid

def observationOf (eventType : ModelStreamEventType) (key text : String) :
    Observation where
  event := { eventType := eventType, payload := [(.str key, .str text)] }
  uuid := "0f0e"
  uuid' := "1a1b"

theorem splits_ab : Splits (observationOf .contentBlockDelta "text" "ab")
    [observationOf .contentBlockDelta "text" "a",
      observationOf .contentBlockDelta "text" "b"] := by
  refine .text .text (Or.inl rfl) (List.cons_ne_nil _ _) ?_
    (by decide)
  intro o ho
  simp only [List.mem_cons, List.not_mem_nil, or_false] at ho
  obtain rfl | rfl | rfl := ho
  · exact ⟨rfl, rfl, rfl⟩
  · exact ⟨rfl, rfl, rfl⟩
  · exact ⟨rfl, rfl, rfl⟩

theorem stream_assembled_faithfully_ab :
    (collected [.observe (observationOf .contentBlockDelta "text" "a"),
        .drain, .observe (observationOf .contentBlockDelta "text" "b"),
        .observe (observationOf .messageStop "id" "m")]).state.blocks
      = (collected [.observe (observationOf .contentBlockDelta "text" "ab"),
        .observe (observationOf .messageStop "id" "m")]).state.blocks
      ∧ (∃ f, (collected
          [.observe (observationOf .contentBlockDelta "text" "ab"),
            .observe (observationOf .messageStop "id" "m")]).state.finalize
          none false "2c2d" = .ok f)
      ∧ ∃ e, (collected [.observe (observationOf .contentBlockStart "type"
          "tool_result")]).state.finalize none true "2c2d" = .error e := by
  refine ⟨?_, ?_, ?_⟩
  · exact (stream_assembled_faithfully _).2.2.1 _ [] _ _
      [observationOf .messageStop "id" "m"] splits_ab rfl rfl
  · obtain ⟨f, hf, -⟩ := ((stream_assembled_faithfully
      [.observe (observationOf .contentBlockDelta "text" "ab"),
        .observe (observationOf .messageStop "id" "m")]).2.2.2 none false
        "2c2d").1 (fun h => absurd h.1 (by decide +kernel))
    exact ⟨f, hf⟩
  · exact ((stream_assembled_faithfully
      [.observe (observationOf .contentBlockStart "type"
        "tool_result")]).2.2.2 none true "2c2d").2
        ⟨rfl, _, rfl, by decide +kernel⟩

/-- A text that was assembled is in no part where a tool result is open. -/
theorem finalize_loses_the_text :
    (collected [.observe (observationOf .contentBlockDelta "text" "hi"),
        .observe (observationOf .contentBlockStart "type"
          "tool_result")]).state.blocks = [.text "hi"]
      ∧ ∀ f, (collected [
          .observe (observationOf .contentBlockDelta "text" "hi"),
          .observe (observationOf .contentBlockStart "type"
            "tool_result")]).state.finalize none false "2c2d" ≠ .ok f := by
  refine ⟨rfl, ?_⟩
  intro f h
  cases h

end WeaveRuntime.TurnEngine
