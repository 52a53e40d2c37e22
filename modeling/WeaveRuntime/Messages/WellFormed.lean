/-
When the messages sent to a model are well formed.

`normalizeMessagesForApi` always gives system, user and assistant messages
with blocks, no two neighbours of one role, and loses nothing of an input
that is paired already. What it gives is paired just when no identifier
that gets a result is used a second time (`normalized_wellFormed_iff`): the
repair matches by identifier, so every use of a matched identifier stays,
in whatever message it stands, while only the first result does.
-/
import Mathlib.Data.List.Chain
import WeaveRuntime.Messages.Protocol

namespace WeaveRuntime.Messages

open Lib
open Lib.Pairing
open Python

-- ============== spread

def spread (g : MessageRole → ContentBlock → List β)
    (messages : List RuntimeMessage) : List β :=
  messages.flatMap fun m => m.content.flatMap (g m.role)

section Spread

variable {g : MessageRole → ContentBlock → List β}

@[simp] theorem spread_nil : spread g [] = [] := rfl

@[simp] theorem spread_cons (m : RuntimeMessage) (ms : List RuntimeMessage) :
    spread g (m :: ms) = m.content.flatMap (g m.role) ++ spread g ms := rfl

@[simp] theorem spread_append (ms ns : List RuntimeMessage) :
    spread g (ms ++ ns) = spread g ms ++ spread g ns :=
  List.flatMap_append

theorem spread_pushMessage (merged : List RuntimeMessage)
    (m : RuntimeMessage) :
    spread g (pushMessage merged m)
      = spread g merged ++ m.content.flatMap (g m.role) := by
  unfold pushMessage
  split
  · next last hlast =>
    split
    · next hmerge =>
      have hrole : last.role = m.role := of_decide_eq_true hmerge
      have hcontent : spread g [mergeMessages last m]
          = last.content.flatMap (g last.role)
            ++ m.content.flatMap (g m.role) := by
        rw [spread_cons, spread_nil, List.append_nil]
        show (last.content ++ m.content).flatMap (g last.role) = _
        rw [List.flatMap_append, hrole]
      have hsplit : merged = merged.dropLast ++ [last] :=
        (List.dropLast_append_getLast? last hlast).symm
      rw [spread_append, hcontent, ← List.append_assoc]
      conv_rhs => rw [hsplit]
      rw [spread_append, spread_cons, spread_nil, List.append_nil]
    · rw [spread_append, spread_cons, spread_nil, List.append_nil]
  · rw [spread_append, spread_cons, spread_nil, List.append_nil]

theorem spread_foldl_pushMessage (ms merged : List RuntimeMessage) :
    spread g (ms.foldl pushMessage merged) = spread g merged ++ spread g ms := by
  induction ms generalizing merged with
  | nil => simp
  | cons m ms ih =>
    rw [List.foldl_cons, ih, spread_pushMessage, spread_cons,
      List.append_assoc]

structure Joins (g : MessageRole → ContentBlock → List β) : Prop where
  text_append : ∀ role a b,
    g role (.text (a ++ b)) = g role (.text a) ++ g role (.text b)
  text_empty : ∀ role, g role (.text "") = []
  thinking_empty : ∀ role signature, g role (.thinking "" signature) = []

theorem flatMap_appendText (hg : Joins g) (role : MessageRole)
    (blocks : List ContentBlock) (text : String) :
    (appendText blocks text).flatMap (g role)
      = blocks.flatMap (g role) ++ g role (.text text) := by
  unfold appendText
  split
  · next before hlast =>
    have hsplit : blocks = blocks.dropLast ++ [.text before] :=
      (List.dropLast_append_getLast? _ hlast).symm
    conv_rhs => rw [hsplit]
    simp only [List.flatMap_append, List.flatMap_cons, List.flatMap_nil,
      List.append_nil, hg.text_append, List.append_assoc]
  · simp only [List.flatMap_append, List.flatMap_cons, List.flatMap_nil,
      List.append_nil]

theorem flatMap_appendBlock (hg : Joins g) (role : MessageRole)
    (blocks : List ContentBlock) (block : ContentBlock) :
    (appendBlock blocks block).flatMap (g role)
      = blocks.flatMap (g role) ++ g role (normalizeBlock block) := by
  have hsnoc : ∀ b, (blocks ++ [b]).flatMap (g role)
      = blocks.flatMap (g role) ++ g role b := by
    intro b
    rw [List.flatMap_append, List.flatMap_singleton]
  cases block with
  | text text =>
    show (if text = "" then blocks else appendText blocks text).flatMap _ = _
    split
    · next hempty =>
      rw [hempty]
      show _ = _ ++ g role (.text "")
      rw [hg.text_empty, List.append_nil]
    · exact flatMap_appendText hg role blocks text
  | thinking thinking signature =>
    show (if thinking = "" then blocks
      else blocks ++ [.thinking thinking signature]).flatMap _ = _
    split
    · next hempty =>
      rw [hempty]
      show _ = _ ++ g role (.thinking "" signature)
      rw [hg.thinking_empty, List.append_nil]
    · exact hsnoc _
  | _ => exact hsnoc _

theorem flatMap_normalizeBlocks (hg : Joins g) (role : MessageRole)
    (blocks : List ContentBlock) :
    (normalizeBlocks blocks).flatMap (g role)
      = blocks.flatMap fun b => g role (normalizeBlock b) := by
  have hfold : ∀ done : List ContentBlock,
      (blocks.foldl appendBlock done).flatMap (g role)
        = done.flatMap (g role)
          ++ blocks.flatMap fun b => g role (normalizeBlock b) := by
    induction blocks with
    | nil => simp
    | cons b blocks ih =>
      intro done
      rw [List.foldl_cons, ih, flatMap_appendBlock hg, List.flatMap_cons,
        List.append_assoc]
  exact hfold []

/-- The messages a model may see. -/
def apiMessages (messages : List RuntimeMessage) : List RuntimeMessage :=
  messages.filter fun m => m.role.apiBound

theorem spread_collect (hg : Joins g) (messages : List RuntimeMessage) :
    spread g (messages.foldl collectMessage [])
      = spread (fun role b => g role (normalizeBlock b))
          (apiMessages messages) := by
  have hfold : ∀ done : List RuntimeMessage,
      spread g (messages.foldl collectMessage done)
        = spread g done
          ++ spread (fun role b => g role (normalizeBlock b))
            (apiMessages messages) := by
    induction messages with
    | nil =>
      intro done
      exact (List.append_nil _).symm
    | cons m messages ih =>
      intro done
      have hnorm := flatMap_normalizeBlocks hg m.role m.content
      rw [List.foldl_cons, ih]
      unfold collectMessage apiMessages
      cases hrole : m.role.apiBound with
      | false =>
        rw [List.filter_cons_of_neg (by simp [hrole])]
        rfl
      | true =>
        have hfilter : (m :: messages).filter (fun m => m.role.apiBound)
            = m :: messages.filter fun m => m.role.apiBound :=
          List.filter_cons_of_pos hrole
        rw [hfilter, spread_cons, ← List.append_assoc, ← hnorm]
        rw [if_neg (show ¬ (!true) = true from Bool.false_ne_true)]
        split
        · next hempty =>
          have hnil : normalizeBlocks m.content = [] :=
            List.isEmpty_iff.1 hempty
          rw [hnil, List.flatMap_nil, List.append_nil]
        · rw [spread_pushMessage]
          rfl
  exact hfold []

end Spread

-- =============== shape

/-- Roles a model knows, no empty message, no two neighbours of one
role. -/
structure Shaped (messages : List RuntimeMessage) : Prop where
  roles : ∀ m ∈ messages, m.role.apiBound = true
  blocks : ∀ m ∈ messages, m.content ≠ []
  neighbours : List.IsChain (fun l r => l.role ≠ r.role) messages

theorem Shaped.nil : Shaped [] :=
  ⟨fun _ h => (nomatch h), fun _ h => (nomatch h), .nil⟩

theorem Shaped.push {merged : List RuntimeMessage} {m : RuntimeMessage}
    (h : Shaped merged) (hrole : m.role.apiBound = true)
    (hblocks : m.content ≠ []) : Shaped (pushMessage merged m) := by
  have hsnoc : (∀ last, merged.getLast? = some last → last.role ≠ m.role) →
      Shaped (merged ++ [m]) := by
    intro hne
    refine ⟨?_, ?_, ?_⟩
    · intro n hn
      rcases List.mem_append.1 hn with hn | hn
      · exact h.roles n hn
      · exact List.mem_singleton.1 hn ▸ hrole
    · intro n hn
      rcases List.mem_append.1 hn with hn | hn
      · exact h.blocks n hn
      · exact List.mem_singleton.1 hn ▸ hblocks
    · refine List.isChain_append.2 ⟨h.neighbours, .singleton m, ?_⟩
      intro last hlast n hn
      cases hn
      exact hne last hlast
  unfold pushMessage
  split
  · next last hlast =>
    split
    · next hmerge =>
      have hsplit : merged = merged.dropLast ++ [last] :=
        (List.dropLast_append_getLast? last hlast).symm
      have hlastmem : last ∈ merged := List.mem_of_getLast? hlast
      have hchain := h.neighbours
      rw [hsplit] at hchain
      obtain ⟨hfront, -, hjoin⟩ := List.isChain_append.1 hchain
      refine ⟨?_, ?_, ?_⟩
      · intro n hn
        rcases List.mem_append.1 hn with hn | hn
        · exact h.roles n (List.dropLast_subset _ hn)
        · rw [List.mem_singleton.1 hn]
          exact h.roles last hlastmem
      · intro n hn
        rcases List.mem_append.1 hn with hn | hn
        · exact h.blocks n (List.dropLast_subset _ hn)
        · rw [List.mem_singleton.1 hn]
          exact List.append_ne_nil_of_right_ne_nil _ hblocks
      · refine List.isChain_append.2 ⟨hfront, .singleton _, ?_⟩
        intro before hbefore n hn
        cases hn
        exact hjoin before hbefore last rfl
    · next hmerge =>
      refine hsnoc fun l hl hrole => hmerge ?_
      rw [hlast] at hl
      cases hl
      exact decide_eq_true hrole
  · next hnone =>
    refine hsnoc fun l hl => ?_
    rw [hnone] at hl
    cases hl

theorem Shaped.foldl_push {ms merged : List RuntimeMessage}
    (h : Shaped merged) (hroles : ∀ m ∈ ms, m.role.apiBound = true)
    (hblocks : ∀ m ∈ ms, m.content ≠ []) :
    Shaped (ms.foldl pushMessage merged) := by
  induction ms generalizing merged with
  | nil => exact h
  | cons m ms ih =>
    have hm := List.mem_cons_self (a := m) (l := ms)
    refine ih (h.push (hroles m hm) (hblocks m hm)) ?_ ?_
    · exact fun n hn => hroles n (List.mem_cons_of_mem _ hn)
    · exact fun n hn => hblocks n (List.mem_cons_of_mem _ hn)

theorem shaped_collect (messages : List RuntimeMessage) :
    Shaped (messages.foldl collectMessage []) := by
  have hfold : ∀ done, Shaped done →
      Shaped (messages.foldl collectMessage done) := by
    induction messages with
    | nil => exact fun done h => h
    | cons m messages ih =>
      intro done h
      refine ih _ ?_
      unfold collectMessage
      split
      · exact h
      · next hrole =>
        split
        · exact h
        · next hblocks =>
          refine h.push ?_ ?_
          · show m.role.apiBound = true
            simpa using hrole
          · exact fun hnil => hblocks (List.isEmpty_iff.2 hnil)
  exact hfold [] .nil

variable {messages : List RuntimeMessage}

theorem mem_ensure {m : RuntimeMessage}
    (h : m ∈ ensureToolResultPairing messages) :
    m.content ≠ [] ∧ ∃ n ∈ messages, n.role = m.role := by
  obtain ⟨entry, hentry, hm⟩ := List.mem_filterMap.1 h
  unfold repairMessage at hm
  split at hm
  · cases hm
  · next hblocks =>
    cases hm
    refine ⟨fun hnil => hblocks (List.isEmpty_iff.2 hnil), entry.1, ?_, rfl⟩
    exact List.fst_mem_of_mem_zipIdx hentry

theorem shaped_normalize (messages : List RuntimeMessage) :
    Shaped (normalizeMessagesForApi messages) := by
  refine Shaped.nil.foldl_push ?_ fun m hm => (mem_ensure hm).1
  intro m hm
  obtain ⟨-, n, hn, hrole⟩ := mem_ensure hm
  rw [← hrole]
  exact (shaped_collect messages).roles n hn

-- =============== marks

/-- What a block means for the pairing: a call is placed in an assistant
message, a result in a user message. -/
def toolMark (role : MessageRole) : ContentBlock → Option (Mark String)
  | .toolUse toolUseId _ _ => some (.ask (role = .assistant) toolUseId)
  | .toolResult toolUseId _ _ => some (.reply (role = .user) toolUseId)
  | _ => none

/-- The tool calls and results of the messages, in order. -/
def toolMarks (messages : List RuntimeMessage) : List (Mark String) :=
  spread (fun role b => (toolMark role b).toList) messages

theorem joins_toolMark : Joins fun role b => (toolMark role b).toList :=
  ⟨fun _ _ _ => rfl, fun _ => rfl, fun _ _ => rfl⟩

@[simp] theorem toolMark_normalizeBlock (role : MessageRole)
    (b : ContentBlock) : toolMark role (normalizeBlock b) = toolMark role b := by
  cases b with
  | _ => rfl

theorem toolMarks_collect (messages : List RuntimeMessage) :
    toolMarks (messages.foldl collectMessage [])
      = toolMarks (apiMessages messages) := by
  unfold toolMarks
  rw [spread_collect joins_toolMark]
  simp only [toolMark_normalizeBlock]

theorem toolMarks_normalize (messages : List RuntimeMessage) :
    toolMarks (normalizeMessagesForApi messages)
      = toolMarks (ensureToolResultPairing
          (messages.foldl collectMessage [])) := by
  unfold toolMarks normalizeMessagesForApi
  rw [spread_foldl_pushMessage, spread_nil, List.nil_append]

/-- A mark with the position of its block. -/
abbrev PlacedMark := (Nat × Nat) × Mark String

def placedIn (entry : RuntimeMessage × Nat) : List PlacedMark :=
  entry.1.content.zipIdx.filterMap fun slot =>
    (toolMark entry.1.role slot.1).map fun mark => ((entry.2, slot.2), mark)

def placedMarks (messages : List RuntimeMessage) : List PlacedMark :=
  messages.zipIdx.flatMap placedIn

theorem slots_marks (role : MessageRole) (n : Nat)
    (blocks : List ContentBlock) (k : Nat) :
    ((blocks.zipIdx k).filterMap fun slot =>
      (toolMark role slot.1).map fun mark => ((n, slot.2), mark)).map Prod.snd
      = blocks.flatMap fun b => (toolMark role b).toList := by
  induction blocks generalizing k with
  | nil => rfl
  | cons b blocks ih =>
    rw [List.zipIdx_cons, List.filterMap_cons, List.flatMap_cons,
      ← ih (k + 1)]
    cases toolMark role b with
    | none => rfl
    | some mark => rfl

theorem placedIn_marks (entry : RuntimeMessage × Nat) :
    (placedIn entry).map Prod.snd
      = entry.1.content.flatMap fun b => (toolMark entry.1.role b).toList :=
  slots_marks entry.1.role entry.2 entry.1.content 0

theorem entries_marks (messages : List RuntimeMessage) (k : Nat) :
    ((messages.zipIdx k).flatMap placedIn).map Prod.snd
      = toolMarks messages := by
  induction messages generalizing k with
  | nil => rfl
  | cons m messages ih =>
    rw [List.zipIdx_cons, List.flatMap_cons, List.map_append, ih,
      placedIn_marks]
    rfl

theorem placedMarks_marks (messages : List RuntimeMessage) :
    (placedMarks messages).map Prod.snd = toolMarks messages :=
  entries_marks messages 0

theorem placedMarks_nodup (messages : List RuntimeMessage) :
    (placedMarks messages).Pairwise fun a b => a.1 ≠ b.1 := by
  have hindex : ∀ {α : Type} (l : List α),
      l.zipIdx.Pairwise fun a b => a.2 ≠ b.2 := by
    intro α l
    refine List.pairwise_map.1 ?_
    rw [List.zipIdx_map_snd]
    exact List.nodup_range'
  refine List.pairwise_flatMap.2 ⟨fun entry _ => ?_, ?_⟩
  · refine List.pairwise_filterMap.2 ((hindex _).imp ?_)
    intro a b hne x hx y hy
    obtain ⟨_, -, hx⟩ := Option.map_eq_some_iff.1 hx
    obtain ⟨_, -, hy⟩ := Option.map_eq_some_iff.1 hy
    rw [← hx, ← hy]
    exact fun heq => hne (Prod.mk.inj heq).2
  · refine (hindex messages).imp ?_
    intro a b hne x hx y hy
    obtain ⟨_, -, hx⟩ := List.mem_filterMap.1 hx
    obtain ⟨_, -, hy⟩ := List.mem_filterMap.1 hy
    obtain ⟨_, -, hx⟩ := Option.map_eq_some_iff.1 hx
    obtain ⟨_, -, hy⟩ := Option.map_eq_some_iff.1 hy
    rw [← hx, ← hy]
    exact fun heq => hne (Prod.mk.inj heq).1

-- ================ scan

/-- The first loop on a mark. -/
def observeMark (state : PairingState) (placed : PlacedMark) : PairingState :=
  match placed.2 with
  | .ask true i =>
    { state with
      pendingToolUses := state.pendingToolUses.insert i placed.1 }
  | .reply true i =>
    if !state.pendingToolUses.contains i then state
    else if i ∈ state.matchedToolUseIds then state
    else { state with
      matchedToolUseIds := state.matchedToolUseIds ++ [i]
      validResultPositions := state.validResultPositions ++ [placed.1] }
  | _ => state

theorem observeBlock_eq (role : MessageRole) (position : Nat × Nat)
    (state : PairingState) (b : ContentBlock) :
    observeBlock role position state b
      = ((toolMark role b).map fun mark => (position, mark)).elim state
          (observeMark state) := by
  cases b with
  | toolUse toolUseId name input =>
    by_cases hrole : role = .assistant
    · simp [observeBlock, toolMark, observeMark, hrole]
    · simp [observeBlock, toolMark, observeMark, hrole]
  | toolResult toolUseId content isError =>
    by_cases hrole : role = .user
    · simp [observeBlock, toolMark, observeMark, hrole]
    · simp [observeBlock, toolMark, observeMark, hrole]
  | _ => rfl

theorem observeMessages_eq (messages : List RuntimeMessage) :
    observeMessages messages
      = (placedMarks messages).foldl observeMark .init := by
  unfold observeMessages placedMarks
  rw [List.foldl_flatMap]
  refine congrArg (fun f => messages.zipIdx.foldl f PairingState.init) ?_
  funext state entry
  unfold placedIn
  rw [List.foldl_filterMap]
  refine congrArg (fun f => entry.1.content.zipIdx.foldl f state) ?_
  funext state slot
  rw [observeBlock_eq]
  cases toolMark entry.1.role slot.1 with
  | none => rfl
  | some mark => rfl

/-- What the first loop has collected after some marks. -/
structure Observed (seen : List PlacedMark) (state : PairingState) : Prop where
  pending : ∀ i, i ∈ state.pendingToolUses.keys
    ↔ .ask true i ∈ seen.map Prod.snd
  matched : ∀ i, i ∈ state.matchedToolUseIds
    ↔ Answered i (seen.map Prod.snd)
  valid : ∀ p, p ∈ state.validResultPositions
    ↔ ∃ pre i post, seen = pre ++ (p, .reply true i) :: post
      ∧ Kept (pre.map Prod.snd) (post.map Prod.snd) (.reply true i)

theorem Observed.init : Observed [] .init := by
  refine ⟨fun i => ?_, fun i => ?_, fun p => ?_⟩
  · simp [PairingState.init]
  · simp [PairingState.init, Answered]
  · simp [PairingState.init]

theorem valid_concat {seen : List PlacedMark} {m : PlacedMark}
    {p : Nat × Nat} :
    (∃ pre i post, seen ++ [m] = pre ++ (p, .reply true i) :: post
        ∧ Kept (pre.map Prod.snd) (post.map Prod.snd) (.reply true i))
      ↔ (∃ pre i post, seen = pre ++ (p, .reply true i) :: post
          ∧ Kept (pre.map Prod.snd) (post.map Prod.snd) (.reply true i))
        ∨ ∃ i, m = (p, .reply true i) ∧ .ask true i ∈ seen.map Prod.snd
          ∧ ¬ Answered i (seen.map Prod.snd) := by
  refine ⟨fun h => ?_, fun h => ?_⟩
  · obtain ⟨pre, i, post, heq, -, hask, hfirst⟩ := h
    rcases List.eq_nil_or_concat post with hnil | ⟨mid, last, hlast⟩
    · rw [hnil] at heq
      obtain ⟨hpre, hm⟩ := List.append_inj' heq rfl
      cases hm
      rw [← hpre] at hask hfirst
      exact Or.inr ⟨i, rfl, hask, hfirst⟩
    · rw [hlast, List.concat_eq_append, ← List.cons_append,
        ← List.append_assoc] at heq
      obtain ⟨hpre, -⟩ := List.append_inj' heq rfl
      exact Or.inl ⟨pre, i, mid, hpre, rfl, hask, hfirst⟩
  · rcases h with ⟨pre, i, post, heq, hkept⟩ | ⟨i, hm, hask, hfirst⟩
    · refine ⟨pre, i, post ++ [m], ?_, hkept⟩
      rw [heq, List.append_assoc, List.cons_append]
    · exact ⟨seen, i, [], by rw [hm], rfl, hask, hfirst⟩

theorem Observed.step {seen : List PlacedMark} {state : PairingState}
    (h : Observed seen state) (m : PlacedMark) :
    Observed (seen ++ [m]) (observeMark state m) := by
  obtain ⟨p, mark⟩ := m
  have hskip : (∀ i, mark ≠ .ask true i) →
      (∀ i, mark = .reply true i → .ask true i ∈ seen.map Prod.snd →
        Answered i (seen.map Prod.snd)) → Observed (seen ++ [(p, mark)]) state := by
    intro hask hreply
    refine ⟨fun i => ?_, fun i => ?_, fun q => ?_⟩
    · rw [h.pending, List.map_append, List.mem_append]
      refine ⟨Or.inl, fun hor => hor.resolve_right fun hmem => ?_⟩
      exact hask i (List.mem_singleton.1 hmem).symm
    · rw [h.matched, List.map_append]
      refine ⟨fun hans => hans.mono (List.sublist_append_left _ _), ?_⟩
      intro hans
      rcases answered_concat.1 hans with hans | ⟨hm, hmem⟩
      · exact hans
      · exact hreply i hm hmem
    · rw [h.valid, valid_concat]
      refine ⟨Or.inl, fun hor => hor.resolve_right ?_⟩
      intro hnew
      obtain ⟨i, hm, hmem, hfirst⟩ := hnew
      exact hfirst (hreply i (Prod.mk.inj hm).2 hmem)
  cases mark with
  | ask placed j =>
    cases placed with
    | false =>
      exact hskip (fun i heq => nomatch heq) fun i heq => nomatch heq
    | true =>
      refine ⟨fun i => ?_, fun i => ?_, fun q => ?_⟩
      · show i ∈ (state.pendingToolUses.insert j p).keys ↔ _
        rw [Dict.mem_keys_insert, h.pending, List.map_append,
          List.mem_append]
        simp [or_comm]
      · show i ∈ state.matchedToolUseIds ↔ _
        rw [h.matched, List.map_append]
        refine ⟨fun hans => hans.mono (List.sublist_append_left _ _), ?_⟩
        intro hans
        exact (answered_concat.1 hans).resolve_right
          fun hnew => nomatch hnew.1
      · show q ∈ state.validResultPositions ↔ _
        rw [h.valid, valid_concat]
        refine ⟨Or.inl, fun hor => hor.resolve_right ?_⟩
        intro hnew
        obtain ⟨i, hm, -⟩ := hnew
        cases hm
  | reply placed j =>
    cases placed with
    | false =>
      exact hskip (fun i heq => nomatch heq) fun i heq => nomatch heq
    | true =>
      unfold observeMark
      dsimp only
      split
      · next hpending =>
        refine hskip (fun i heq => nomatch heq) fun i heq hmem => ?_
        cases heq
        rw [← h.pending, ← Dict.contains_iff] at hmem
        rw [hmem] at hpending
        cases hpending
      · next hpending =>
        have hopen : .ask true j ∈ seen.map Prod.snd := by
          rw [← h.pending, ← Dict.contains_iff]
          simpa using hpending
        split
        · next hmatched =>
          refine hskip (fun i heq => nomatch heq) fun i heq _ => ?_
          cases heq
          exact (h.matched j).1 hmatched
        · next hmatched =>
          rw [h.matched] at hmatched
          refine ⟨fun i => ?_, fun i => ?_, fun q => ?_⟩
          · show i ∈ state.pendingToolUses.keys ↔ _
            rw [h.pending, List.map_append, List.mem_append]
            refine ⟨Or.inl, fun hor => hor.resolve_right fun hmem => ?_⟩
            cases List.mem_singleton.1 hmem
          · rw [List.mem_append, h.matched, List.map_append]
            refine ⟨fun hor => ?_, fun hans => ?_⟩
            · refine answered_concat.2 (hor.imp_right fun hmem => ?_)
              rw [List.mem_singleton.1 hmem]
              exact ⟨rfl, hopen⟩
            · refine (answered_concat.1 hans).imp_right fun hnew => ?_
              cases hnew.1
              exact List.mem_singleton_self _
          · rw [List.mem_append, h.valid, valid_concat]
            refine or_congr_right ⟨fun hmem => ?_, fun hnew => ?_⟩
            · rw [List.mem_singleton.1 hmem]
              exact ⟨j, rfl, hopen, hmatched⟩
            · obtain ⟨i, hm, -⟩ := hnew
              cases hm
              exact List.mem_singleton_self _

theorem observed_foldl (marks : List PlacedMark) :
    Observed marks (marks.foldl observeMark .init) := by
  induction marks using List.reverseRecOn with
  | nil => exact .init
  | append_singleton marks m ih =>
    rw [List.foldl_append]
    exact ih.step m

-- ============== repair

/-- Whether the second loop keeps a mark. -/
def keepMark (state : PairingState) (placed : PlacedMark) : Bool :=
  match placed.2 with
  | .ask _ i => i ∈ state.matchedToolUseIds
  | .reply _ _ => state.validAt placed.1

theorem split_unique {L pre post pre' post' : List PlacedMark}
    {x y : PlacedMark} (hL : L.Pairwise fun a b => a.1 ≠ b.1)
    (hx : L = pre ++ x :: post) (hy : L = pre' ++ y :: post')
    (h : x.1 = y.1) : pre = pre' ∧ x = y ∧ post = post' := by
  have hearlier : ∀ {front mid back : List PlacedMark} {a b : PlacedMark},
      L = front ++ a :: (mid ++ b :: back) → a.1 ≠ b.1 := by
    intro front mid back a b heq
    rw [heq] at hL
    have htail := (List.pairwise_append.1 hL).2.1
    refine (List.pairwise_cons.1 htail).1 b ?_
    exact List.mem_append_right _ (List.mem_cons_self ..)
  have hboth : pre ++ x :: post = pre' ++ y :: post' := hx.symm.trans hy
  rcases List.append_eq_append_iff.1 hboth with ⟨mid, hpre, hrest⟩
    | ⟨mid, hpre, hrest⟩
  · cases mid with
    | nil =>
      obtain ⟨hxy, hpost⟩ := List.cons_eq_cons.1 hrest
      exact ⟨by rw [hpre, List.append_nil], hxy, hpost⟩
    | cons m mid =>
      obtain ⟨-, htail⟩ := List.cons_eq_cons.1 hrest
      rw [htail] at hx
      exact absurd h (hearlier hx)
  · cases mid with
    | nil =>
      obtain ⟨hyx, hpost⟩ := List.cons_eq_cons.1 hrest
      exact ⟨by rw [hpre, List.append_nil], hyx.symm, hpost.symm⟩
    | cons m mid =>
      obtain ⟨-, htail⟩ := List.cons_eq_cons.1 hrest
      rw [htail] at hy
      exact absurd h.symm (hearlier hy)

theorem repairs_keepMark (messages : List RuntimeMessage) :
    Repairs Prod.snd (keepMark (observeMessages messages))
      (placedMarks messages) := by
  intro pre x post hL
  obtain ⟨p, mark⟩ := x
  rw [observeMessages_eq]
  have hobs := observed_foldl (placedMarks messages)
  cases mark with
  | ask placed i =>
    show decide (i ∈ _) = true ↔ Answered i (_ ++ .ask placed i :: _)
    rw [decide_eq_true_eq, hobs.matched, hL, List.map_append, List.map_cons]
  | reply placed i =>
    show decide (p ∈ _) = true ↔ _
    rw [decide_eq_true_eq, hobs.valid]
    refine ⟨fun h => ?_, fun h => ?_⟩
    · obtain ⟨pre', i', post', hL', hkept⟩ := h
      obtain ⟨hpre, hmark, hpost⟩ :=
        split_unique (placedMarks_nodup messages) hL hL' rfl
      cases hmark
      rw [hpre, hpost]
      exact hkept
    · have hplaced : placed = true := h.1
      rw [hplaced] at h hL
      exact ⟨pre, i, post, hL, h⟩

theorem keepBlock_eq (state : PairingState) (role : MessageRole)
    (position : Nat × Nat) (b : ContentBlock) :
    keepBlock state position b
      = ((toolMark role b).map fun mark => (position, mark)).elim true
          (keepMark state) := by
  cases b with
  | _ => rfl

theorem repairedBlocks_marks (state : PairingState)
    (entry : RuntimeMessage × Nat) :
    ((repairedBlocks state entry).flatMap fun b =>
        (toolMark entry.1.role b).toList)
      = ((placedIn entry).filter (keepMark state)).map Prod.snd := by
  unfold repairedBlocks placedIn
  generalize entry.1.content.zipIdx = slots
  induction slots with
  | nil => rfl
  | cons slot slots ih =>
    rw [List.filterMap_cons]
    cases hmark : toolMark entry.1.role slot.1 with
    | none =>
      have hkeep : keepBlock state (entry.2, slot.2) slot.1 = true := by
        rw [keepBlock_eq state entry.1.role, hmark]
        rfl
      rw [List.filter_cons, hkeep, if_pos rfl, List.map_cons,
        List.flatMap_cons, hmark, ih]
      rfl
    | some mark =>
      have hsame : keepBlock state (entry.2, slot.2) slot.1
          = keepMark state ((entry.2, slot.2), mark) := by
        rw [keepBlock_eq state entry.1.role, hmark]
        rfl
      dsimp only [Option.map_some]
      cases hkeep : keepMark state ((entry.2, slot.2), mark) with
      | true =>
        rw [List.filter_cons, hsame, hkeep, if_pos rfl, List.map_cons,
          List.flatMap_cons, hmark, List.filter_cons_of_pos hkeep,
          List.map_cons, ih]
        rfl
      | false =>
        rw [List.filter_cons, hsame, hkeep, if_neg Bool.false_ne_true,
          List.filter_cons, hkeep, if_neg Bool.false_ne_true, ih]

theorem toolMarks_ensure (messages : List RuntimeMessage) :
    toolMarks (ensureToolResultPairing messages)
      = survivors Prod.snd (keepMark (observeMessages messages))
          (placedMarks messages) := by
  unfold ensureToolResultPairing survivors placedMarks
  generalize observeMessages messages = state
  generalize messages.zipIdx = entries
  induction entries with
  | nil => rfl
  | cons entry entries ih =>
    rw [List.flatMap_cons, List.filter_append, List.map_append, ← ih,
      ← repairedBlocks_marks, List.filterMap_cons]
    unfold repairMessage
    split
    · next hnone =>
      split at hnone
      · next hempty =>
        rw [List.isEmpty_iff.1 hempty]
        rfl
      · cases hnone
    · next hsome =>
      split at hsome
      · cases hsome
      · cases hsome
        rfl

theorem ensure_eq_self (hkeep : ∀ x ∈ placedMarks messages,
      keepMark (observeMessages messages) x = true)
    (hblocks : ∀ m ∈ messages, m.content ≠ []) :
    ensureToolResultPairing messages = messages := by
  have hentry : ∀ entry ∈ messages.zipIdx,
      repairMessage (observeMessages messages) entry = some entry.1 := by
    intro entry hentry
    have hall : ∀ slot ∈ entry.1.content.zipIdx,
        keepBlock (observeMessages messages) (entry.2, slot.2) slot.1
          = true := by
      intro slot hslot
      rw [keepBlock_eq _ entry.1.role]
      cases hmark : toolMark entry.1.role slot.1 with
      | none => rfl
      | some mark =>
        refine hkeep _ (List.mem_flatMap.2 ⟨entry, hentry, ?_⟩)
        refine List.mem_filterMap.2 ⟨slot, hslot, ?_⟩
        rw [hmark]
        rfl
    have hsame : repairedBlocks (observeMessages messages) entry
        = entry.1.content := by
      unfold repairedBlocks
      rw [List.filter_eq_self.2 hall, List.zipIdx_map_fst]
    unfold repairMessage
    rw [hsame, if_neg fun hempty => hblocks entry.1
      (List.fst_mem_of_mem_zipIdx hentry) (List.isEmpty_iff.1 hempty)]
  unfold ensureToolResultPairing
  rw [List.filterMap_congr hentry]
  show messages.zipIdx.filterMap (some ∘ Prod.fst) = messages
  rw [List.filterMap_eq_map, List.zipIdx_map_fst]

theorem ensure_eq_self_of_kept
    (hkept : ∀ pre m post, toolMarks messages = pre ++ m :: post →
      Kept pre post m) (hblocks : ∀ m ∈ messages, m.content ≠ []) :
    ensureToolResultPairing messages = messages := by
  refine ensure_eq_self (fun x hx => ?_) hblocks
  obtain ⟨pre, post, hL⟩ := List.append_of_mem hx
  refine (repairs_keepMark messages pre x post hL).2 (hkept _ _ _ ?_)
  rw [← placedMarks_marks, hL, List.map_append, List.map_cons]

/-- Repairing twice is repairing once. -/
theorem ensure_idempotent (messages : List RuntimeMessage) :
    ensureToolResultPairing (ensureToolResultPairing messages)
      = ensureToolResultPairing messages := by
  refine ensure_eq_self_of_kept ?_ fun m hm => (mem_ensure hm).1
  intro pre m post h
  rw [toolMarks_ensure] at h
  exact kept_of_survivors (repairs_keepMark messages) h

-- ============== result

/-- What a block shows of itself: a text its characters, so that texts may
be joined, a thinking block itself unless it is empty. -/
inductive Atom where
  | char (c : Char)
  | block (b : ContentBlock)

def atoms : ContentBlock → List Atom
  | .text text => text.toList.map .char
  | .thinking thinking signature =>
    if thinking = "" then [] else [.block (.thinking thinking signature)]
  | b => [.block b]

def roleAtoms (role : MessageRole) (b : ContentBlock) :
    List (MessageRole × Atom) :=
  (atoms b).map fun a => (role, a)

theorem joins_roleAtoms : Joins roleAtoms := by
  refine ⟨fun role a b => ?_, fun role => rfl, fun role signature => rfl⟩
  show ((a ++ b).toList.map Atom.char).map _ = _
  rw [String.toList_append, List.map_append, List.map_append]
  rfl

/-- No identifier is used by two tool calls. -/
def DistinctIds (messages : List RuntimeMessage) : Prop :=
  ∀ i, (toolMarks messages).countP (asks i) ≤ 1

/-- What is asked of the messages sent to a model for `messages`. -/
structure WellFormed (messages : List RuntimeMessage) : Prop where
  shaped : Shaped (normalizeMessagesForApi messages)
  paired : Paired (toolMarks (normalizeMessagesForApi messages))
  /-- No tool block of a paired input is dropped. -/
  complete : Paired (toolMarks messages) → DistinctIds messages →
    toolMarks (normalizeMessagesForApi messages) = toolMarks messages
  /-- Text, thinking and tool blocks keep their order. -/
  ordered : Paired (toolMarks (apiMessages messages)) →
    DistinctIds (apiMessages messages) →
    spread roleAtoms (normalizeMessagesForApi messages)
      = spread (fun role b => roleAtoms role (normalizeBlock b))
          (apiMessages messages)
  idempotent : ensureToolResultPairing (ensureToolResultPairing messages)
    = ensureToolResultPairing messages

theorem toolMarks_apiMessages (h : Paired (toolMarks messages)) :
    toolMarks (apiMessages messages) = toolMarks messages := by
  have hplaced : ∀ m ∈ messages, m.role.apiBound = false →
      (m.content.flatMap fun b => (toolMark m.role b).toList) = [] := by
    intro m hm hrole
    refine List.flatMap_eq_nil_iff.2 fun b hb => ?_
    cases hmark : toolMark m.role b with
    | none => rfl
    | some mark =>
      have hmem : mark ∈ toolMarks messages := by
        refine List.mem_flatMap.2 ⟨m, hm, List.mem_flatMap.2 ⟨b, hb, ?_⟩⟩
        show mark ∈ (toolMark m.role b).toList
        rw [hmark]
        exact List.mem_singleton_self _
      obtain ⟨pre, post, hsplit⟩ := List.append_of_mem hmem
      have hat := h pre mark post hsplit
      -- a mark of a host-only message is not placed
      cases b with
      | toolUse toolUseId name input =>
        cases hmark
        have hassistant : m.role = .assistant := of_decide_eq_true hat.1
        rw [hassistant] at hrole
        cases hrole
      | toolResult toolUseId content isError =>
        cases hmark
        have huser : m.role = .user := of_decide_eq_true hat.1
        rw [huser] at hrole
        cases hrole
      | _ => cases hmark
  clear h
  unfold apiMessages toolMarks
  induction messages with
  | nil => rfl
  | cons m messages ih =>
    have htail := ih fun n hn => hplaced n (List.mem_cons_of_mem _ hn)
    rw [List.filter_cons]
    split
    · rw [spread_cons, spread_cons, htail]
    · next hrole =>
      rw [spread_cons, hplaced m (List.mem_cons_self ..)
        (Bool.not_eq_true _ |>.mp hrole), List.nil_append, htail]

theorem ensure_collect (hpaired : Paired (toolMarks (apiMessages messages)))
    (hdistinct : DistinctIds (apiMessages messages)) :
    ensureToolResultPairing (messages.foldl collectMessage [])
      = messages.foldl collectMessage [] := by
  refine ensure_eq_self_of_kept ?_ (shaped_collect messages).blocks
  intro pre m post h
  rw [toolMarks_collect] at h
  exact kept_of_paired hpaired hdistinct h

theorem normalize_complete (hpaired : Paired (toolMarks messages))
    (hdistinct : DistinctIds messages) :
    toolMarks (normalizeMessagesForApi messages) = toolMarks messages := by
  have hapi := toolMarks_apiMessages hpaired
  rw [toolMarks_normalize, ensure_collect, toolMarks_collect, hapi]
  · rw [hapi]
    exact hpaired
  · unfold DistinctIds
    rw [hapi]
    exact hdistinct

theorem normalize_ordered
    (hpaired : Paired (toolMarks (apiMessages messages)))
    (hdistinct : DistinctIds (apiMessages messages)) :
    spread roleAtoms (normalizeMessagesForApi messages)
      = spread (fun role b => roleAtoms role (normalizeBlock b))
          (apiMessages messages) := by
  unfold normalizeMessagesForApi
  rw [spread_foldl_pushMessage, spread_nil, List.nil_append,
    ensure_collect hpaired hdistinct, spread_collect joins_roleAtoms]

theorem paired_normalize_iff (messages : List RuntimeMessage) :
    Paired (toolMarks (normalizeMessagesForApi messages))
      ↔ ∀ i, Answered i (toolMarks (apiMessages messages)) →
          (toolMarks (apiMessages messages)).countP (asks i) ≤ 1 := by
  rw [toolMarks_normalize, toolMarks_ensure,
    paired_iff_asked_once (repairs_keepMark _), placedMarks_marks,
    toolMarks_collect]

/-- The messages sent to a model are well formed just when no identifier
with a result to one of its calls is used by a second call. -/
theorem normalized_wellFormed_iff (messages : List RuntimeMessage) :
    WellFormed messages
      ↔ ∀ i, Answered i (toolMarks (apiMessages messages)) →
          (toolMarks (apiMessages messages)).countP (asks i) ≤ 1 := by
  rw [← paired_normalize_iff]
  refine ⟨fun h => h.paired, fun h => ?_⟩
  exact {
    shaped := shaped_normalize messages
    paired := h
    complete := normalize_complete
    ordered := normalize_ordered
    idempotent := ensure_idempotent messages }

/-- A call and its result, twice under one identifier: what a model that
numbers its calls anew in each turn produces. -/
def reusedCallMessages : List RuntimeMessage :=
  let message := fun (messageId : String) (role : MessageRole)
      (content : List ContentBlock) =>
    { messageId := messageId, role := role, content := content,
      createdAt := ⟨⟨2026, 1, 1, 0, 0, 0, 0⟩, by decide⟩,
      attachments := [], metadata := [] : RuntimeMessage }
  [message "a1" .assistant [.toolUse "call_0" "ls" (.mapping [])],
    message "u1" .user [.toolResult "call_0" (.scalar (.str "x")) false],
    message "a2" .assistant [.toolUse "call_0" "ls" (.mapping [])],
    message "u2" .user [.toolResult "call_0" (.scalar (.str "y")) false]]

/-- The second call is sent without a result. -/
theorem reused_call_unanswered : ¬ WellFormed reusedCallMessages := by
  intro h
  have hmarks : toolMarks (normalizeMessagesForApi reusedCallMessages)
      = [.ask true "call_0", .reply true "call_0"]
        ++ .ask true "call_0" :: [] := by decide
  obtain ⟨-, hone⟩ := h.paired _ _ _ hmarks
  cases hone

end WeaveRuntime.Messages
