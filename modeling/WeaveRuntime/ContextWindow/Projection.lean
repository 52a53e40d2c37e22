/-
What the projection keeps of the messages it must keep.

`applyProjectionPass` selects messages by their index, repairs the pairing
of tool calls and results among those, and gives the input back where the
repaired messages fail a check. The repair drops blocks inside messages,
and the check compares message ids: a message that has lost a tool block
still passes, one that has lost its last block does not.

# How it is read

`staying` are the messages the limit lets stay. A tool block of one of them
survives the repair when its partner stays too (`Partnered`, which is
`Kept` on the marks around the block), so a message comes out whole, short
of some blocks, or not at all (`repair_entry`). The check finds exactly the
required messages that do not come out (`projectionInvariants_iff`); the
pairing it also looks at is always right after a repair. Whence
`projected_iff`.
-/
import Mathlib.Data.List.Flatten
import Mathlib.Data.List.Forall2
import WeaveRuntime.ContextWindow.Passes
import WeaveRuntime.Messages.WellFormed

namespace WeaveRuntime.ContextWindow

open Lib Python Messages
open Lib.Pairing

-- ======= the statement

/-- The system prefix, the latest message of the user, and the pinned
messages. -/
def Required (messages : List RuntimeMessage) (m : RuntimeMessage) : Prop :=
  m ∈ messages.takeWhile (fun m => m.role = .system)
    ∨ messages.reverse.find? (fun m => m.role = .user) = some m
    ∨ m ∈ messages ∧ requiresProjectionPin m = true

/-- `m'` is `m` with blocks left out; a message of `whole` has all. -/
def Trimmed (whole : RuntimeMessage → Prop) (m m' : RuntimeMessage) : Prop :=
  m' = { m with content := m'.content } ∧ m'.content.Sublist m.content
    ∧ (whole m → m' = m)

/-- The input, or a sub-list of it with all required messages, in which the
required messages and those of `whole` have all their blocks and every tool
block is paired. For the plain sub-lists `whole` holds of every message. -/
def Projected (whole : RuntimeMessage → Prop)
    (messages out : List RuntimeMessage) : Prop :=
  out = messages ∨ ∃ sub : List RuntimeMessage,
    sub.Sublist messages
      ∧ List.Forall₂ (Trimmed fun m => Required messages m ∨ whole m) sub out
      ∧ (∀ m, Required messages m → m ∈ sub)
      ∧ Paired (toolMarks out)

-- ============= staying

/-- The messages that stay in view: the system messages, the pinned ones,
the latest one of the user, and the last `limit` that do not belong to the
system prefix. -/
def Stays (messages : List RuntimeMessage) (limit : Int)
    (entry : RuntimeMessage × Nat) : Prop :=
  entry.1.role = .system ∨ requiresProjectionPin entry.1 = true
    ∨ entry.2 = latestUserIndex messages
    ∨ ((messages.takeWhile fun m => m.role = .system).length ≤ entry.2
      ∧ (messages.length : Int) - limit ≤ entry.2)

instance (messages : List RuntimeMessage) (limit : Int) :
    DecidablePred (Stays messages limit) := fun _ =>
  inferInstanceAs (Decidable (_ ∨ _ ∨ _ ∨ _ ∧ _))

def staying (messages : List RuntimeMessage) (limit : Int) :
    List RuntimeMessage :=
  (messages.zipIdx.filter fun entry => Stays messages limit entry).map Prod.fst

theorem selectedMessages_eq (messages : List RuntimeMessage) (limit : Int) :
    selectedMessages messages limit = staying messages limit := by
  unfold selectedMessages staying
  refine congrArg (List.map Prod.fst) (List.filter_congr fun entry _ => ?_)
  rw [Bool.eq_iff_iff, decide_eq_true_eq (p := Stays messages limit entry)]
  simp only [Bool.or_eq_true, decide_eq_true_eq, or_assoc]
  refine or_congr_right (or_congr_right (or_congr_right ?_))
  omega

theorem staying_sublist (messages : List RuntimeMessage) (limit : Int) :
    (staying messages limit).Sublist messages := by
  have h : ((messages.zipIdx.filter fun entry =>
      Stays messages limit entry).map Prod.fst).Sublist
        (messages.zipIdx.map Prod.fst) :=
    List.Sublist.map Prod.fst List.filter_sublist
  rwa [List.zipIdx_map_fst] at h

variable {S : List RuntimeMessage} {id : String} {limit : Int}
  {m : RuntimeMessage} {messages : List RuntimeMessage}

theorem latest_mem_zipIdx
    (h : messages.reverse.find? (fun m => m.role = .user) = some m) :
    (m, latestUserIndex messages) ∈ messages.zipIdx := by
  have hlast : (messages.zipIdx.filter fun entry =>
      entry.1.role = .user).getLast?
        = messages.zipIdx.reverse.find? fun entry => entry.1.role = .user := by
    rw [← List.head?_reverse, ← List.filter_reverse, List.head?_filter]
  have hfirst : messages.reverse = messages.zipIdx.reverse.map Prod.fst := by
    rw [List.map_reverse, List.zipIdx_map_fst]
  rw [hfirst, List.find?_map] at h
  obtain ⟨entry, hentry, hm⟩ := Option.map_eq_some_iff.1 h
  have hindex : latestUserIndex messages = entry.2 := by
    unfold latestUserIndex
    rw [hlast]
    show (Option.map Prod.snd (List.find? ((fun m : RuntimeMessage =>
      decide (m.role = .user)) ∘ Prod.fst) _)).getD _ = _
    rw [hentry]
    rfl
  rw [hindex, ← hm]
  exact List.mem_reverse.1 (List.mem_of_find?_eq_some hentry)

theorem mem_staying {k : Nat} (hm : (m, k) ∈ messages.zipIdx)
    (h : Stays messages limit (m, k)) : m ∈ staying messages limit := by
  refine List.mem_map.2 ⟨(m, k), List.mem_filter.2 ⟨hm, ?_⟩, rfl⟩
  exact decide_eq_true h

theorem required_stays (limit : Int) (h : Required messages m) :
    m ∈ staying messages limit := by
  have hplace : ∀ n ∈ messages, ∃ k, (n, k) ∈ messages.zipIdx := by
    intro n hn
    rw [← List.zipIdx_map_fst 0 messages] at hn
    obtain ⟨entry, hentry, heq⟩ := List.mem_map.1 hn
    exact ⟨entry.2, heq ▸ hentry⟩
  rcases h with hsystem | hlatest | ⟨hmem, hpin⟩
  · obtain ⟨k, hk⟩ := hplace m ((List.takeWhile_sublist _).subset hsystem)
    have hrole := List.mem_takeWhile_imp hsystem
    exact mem_staying hk (Or.inl (of_decide_eq_true hrole))
  · exact mem_staying (latest_mem_zipIdx hlatest)
      (Or.inr (Or.inr (Or.inl rfl)))
  · obtain ⟨k, hk⟩ := hplace m hmem
    exact mem_staying hk (Or.inr (Or.inl hpin))

-- ============ partners

def blockMarks (role : MessageRole) (blocks : List ContentBlock) :
    List (Mark String) :=
  blocks.flatMap fun b => (toolMark role b).toList

/-- The block between `pre` and `post` is no tool block, or its partner is
there: for a call some result after it, for a result a call before it and
no earlier result. -/
def Partnered (before : List RuntimeMessage) (m : RuntimeMessage)
    (after : List RuntimeMessage) (pre : List ContentBlock) (b : ContentBlock)
    (post : List ContentBlock) : Prop :=
  ∀ mark, toolMark m.role b = some mark →
    Kept (toolMarks before ++ blockMarks m.role pre)
      (blockMarks m.role post ++ toolMarks after) mark

theorem placedMarks_split {before after : List RuntimeMessage}
    {m : RuntimeMessage} {pre post : List ContentBlock} {b : ContentBlock}
    (hm : m.content = pre ++ b :: post) {mark : Mark String}
    (hb : toolMark m.role b = some mark) :
    ∃ front back, placedMarks (before ++ m :: after)
        = front ++ ((before.length, pre.length), mark) :: back
      ∧ front.map Prod.snd = toolMarks before ++ blockMarks m.role pre
      ∧ back.map Prod.snd = blockMarks m.role post ++ toolMarks after := by
  let slots := fun (blocks : List ContentBlock) (k : Nat) =>
    (blocks.zipIdx k).filterMap fun slot =>
      (toolMark m.role slot.1).map fun mark =>
        ((before.length, slot.2), mark)
  refine ⟨before.zipIdx.flatMap placedIn ++ slots pre 0,
    slots post (pre.length + 1)
      ++ (after.zipIdx (before.length + 1)).flatMap placedIn, ?_, ?_, ?_⟩
  · have hentry : placedIn (m, before.length)
        = slots pre 0 ++ ((before.length, pre.length), mark)
          :: slots post (pre.length + 1) := by
      show slots m.content 0 = _
      rw [hm]
      show List.filterMap _ (List.zipIdx _ 0) = _
      rw [List.zipIdx_append, List.zipIdx_cons, List.filterMap_append,
        List.filterMap_cons, hb, Nat.zero_add]
      rfl
    unfold placedMarks
    rw [List.zipIdx_append, List.zipIdx_cons, List.flatMap_append,
      List.flatMap_cons, Nat.zero_add, hentry]
    simp only [List.append_assoc, List.cons_append]
  · rw [List.map_append, entries_marks]
    exact congrArg _ (slots_marks m.role before.length pre 0)
  · rw [List.map_append, entries_marks]
    exact congrArg (· ++ _)
      (slots_marks m.role before.length post (pre.length + 1))

theorem keepBlock_iff {before after : List RuntimeMessage}
    {m : RuntimeMessage} {pre post : List ContentBlock} {b : ContentBlock}
    (hm : m.content = pre ++ b :: post) :
    keepBlock (observeMessages (before ++ m :: after))
        (before.length, pre.length) b = true
      ↔ Partnered before m after pre b post := by
  rw [keepBlock_eq _ m.role]
  unfold Partnered
  cases hb : toolMark m.role b with
  | none => exact ⟨fun _ mark h => (nomatch h), fun _ => rfl⟩
  | some mark =>
    obtain ⟨front, back, hsplit, hfront, hback⟩ :=
      @placedMarks_split before after m pre post b hm mark hb
    have hrepair := repairs_keepMark _ front _ back hsplit
    rw [hfront, hback] at hrepair
    refine ⟨fun h mark' heq => ?_, fun h => hrepair.2 (h mark rfl)⟩
    cases heq
    exact hrepair.1 h

/-- Every block of the message has its partner. -/
def Untouched (before : List RuntimeMessage) (m : RuntimeMessage)
    (after : List RuntimeMessage) : Prop :=
  ∀ pre b post, m.content = pre ++ b :: post →
    Partnered before m after pre b post

/-- No block of the message has its partner, and all are tool blocks. -/
def Emptied (before : List RuntimeMessage) (m : RuntimeMessage)
    (after : List RuntimeMessage) : Prop :=
  ∀ pre b post, m.content = pre ++ b :: post →
    ¬ Partnered before m after pre b post

/-- The pass is skipped: there is no limit or it is not reached, or there
are system messages only. -/
def Skipped (maxActiveMessages : Option Int)
    (messages : List RuntimeMessage) : Prop :=
  ∀ limit, maxActiveMessages = some limit →
    (messages.length : Int) ≤ limit ∨ ∀ m ∈ messages, m.role = .system

def LosesRequired (messages : List RuntimeMessage) (limit : Int) : Prop :=
  ∃ before m after, staying messages limit = before ++ m :: after
    ∧ Required messages m ∧ Emptied before m after

/-- No required message and none of `whole` loses some of its blocks. -/
def SparesBlocks (whole : RuntimeMessage → Prop)
    (messages : List RuntimeMessage) (limit : Int) : Prop :=
  ∀ before m after, staying messages limit = before ++ m :: after →
    Required messages m ∨ whole m →
      Emptied before m after ∨ Untouched before m after

-- ============== repair

theorem mem_zipIdx_split {l : List α} {a : α} {k : Nat} :
    (a, k) ∈ l.zipIdx ↔ ∃ pre post, l = pre ++ a :: post ∧ pre.length = k := by
  rw [List.mk_mem_zipIdx_iff_getElem?]
  refine ⟨fun h => ?_, fun h => ?_⟩
  · obtain ⟨hk, ha⟩ := List.getElem?_eq_some_iff.1 h
    refine ⟨l.take k, l.drop (k + 1), ?_, ?_⟩
    · rw [← ha, List.getElem_cons_drop, List.take_append_drop]
    · exact List.length_take_of_le hk.le
  · obtain ⟨pre, post, hl, hk⟩ := h
    rw [hl, ← hk, List.getElem?_append_right (le_refl _), Nat.sub_self]
    rfl

section Repair

variable {before after : List RuntimeMessage} {m : RuntimeMessage}

theorem repairedBlocks_nil_iff :
    repairedBlocks (observeMessages (before ++ m :: after)) (m, before.length)
        = []
      ↔ Emptied before m after := by
  unfold repairedBlocks Emptied
  rw [List.map_eq_nil_iff, List.filter_eq_nil_iff]
  refine ⟨fun h pre b post hm hpart => ?_, fun h slot hslot hkeep => ?_⟩
  · refine h (b, pre.length) ?_ ((keepBlock_iff hm).2 hpart)
    exact mem_zipIdx_split.2 ⟨pre, post, hm, rfl⟩
  · obtain ⟨pre, post, hm, hk⟩ := mem_zipIdx_split.1 hslot
    refine h pre slot.1 post hm ((keepBlock_iff hm).1 ?_)
    rw [hk]
    exact hkeep

theorem repairedBlocks_self_iff :
    repairedBlocks (observeMessages (before ++ m :: after)) (m, before.length)
        = m.content
      ↔ Untouched before m after := by
  have hall : (∀ slot ∈ m.content.zipIdx,
      keepBlock (observeMessages (before ++ m :: after))
        (before.length, slot.2) slot.1 = true) ↔ Untouched before m after := by
    refine ⟨fun h pre b post hm => ?_, fun h slot hslot => ?_⟩
    · refine (keepBlock_iff hm).1 (h (b, pre.length) ?_)
      exact mem_zipIdx_split.2 ⟨pre, post, hm, rfl⟩
    · obtain ⟨pre, post, hm, hk⟩ := mem_zipIdx_split.1 hslot
      rw [← hk]
      exact (keepBlock_iff hm).2 (h pre slot.1 post hm)
  unfold repairedBlocks
  rw [← hall]
  refine ⟨fun h => List.length_filter_eq_length_iff.1 ?_, fun h => ?_⟩
  · have hlength := congrArg List.length h
    rw [List.length_map] at hlength
    rw [hlength, List.length_zipIdx]
  · rw [List.filter_eq_self.2 h, List.zipIdx_map_fst]

end Repair

def repaired (S : List RuntimeMessage) (entry : RuntimeMessage × Nat) :
    RuntimeMessage :=
  { entry.1 with content := repairedBlocks (observeMessages S) entry }

/-- The entries of which a block is left. -/
def leftOver (S : List RuntimeMessage) : List (RuntimeMessage × Nat) :=
  S.zipIdx.filter fun entry => !(repaired S entry).content.isEmpty

theorem ensure_eq_repaired (S : List RuntimeMessage) :
    ensureToolResultPairing S = (leftOver S).map (repaired S) := by
  unfold ensureToolResultPairing leftOver
  rw [← List.filterMap_eq_filter, List.map_filterMap]
  refine List.filterMap_congr fun entry _ => ?_
  show (if (repaired S entry).content.isEmpty then none
      else some (repaired S entry))
    = (if !(repaired S entry).content.isEmpty then some entry
      else none).map (repaired S)
  cases (repaired S entry).content.isEmpty with
  | true => rfl
  | false => rfl

theorem mem_leftOver_iff {before after : List RuntimeMessage} :
    (m, before.length) ∈ leftOver (before ++ m :: after)
      ↔ ¬ Emptied before m after := by
  have hentry : (m, before.length) ∈ (before ++ m :: after).zipIdx :=
    mem_zipIdx_split.2 ⟨before, after, rfl, rfl⟩
  unfold leftOver
  rw [List.mem_filter, ← repairedBlocks_nil_iff, Bool.not_eq_true',
    ← Bool.not_eq_true, List.isEmpty_iff]
  exact and_iff_right hentry

theorem leftOver_split {entry : RuntimeMessage × Nat}
    (h : entry ∈ leftOver S) :
    ∃ before after, S = before ++ entry.1 :: after
      ∧ before.length = entry.2 ∧ ¬ Emptied before entry.1 after := by
  obtain ⟨before, after, hS, hk⟩ :=
    mem_zipIdx_split.1 (List.mem_filter.1 h).1
  refine ⟨before, after, hS, hk, mem_leftOver_iff.1 ?_⟩
  rw [← hS, hk]
  exact h

theorem entry_unique (hids : (S.map RuntimeMessage.messageId).Nodup)
    {a b : RuntimeMessage × Nat} (ha : a ∈ S.zipIdx) (hb : b ∈ S.zipIdx)
    (h : a.1.messageId = b.1.messageId) : a = b := by
  have hga := List.mk_mem_zipIdx_iff_getElem?.1 ha
  have hgb := List.mk_mem_zipIdx_iff_getElem?.1 hb
  have hka : (S.map RuntimeMessage.messageId)[a.2]? = some a.1.messageId := by
    rw [List.getElem?_map, hga]
    rfl
  have hkb : (S.map RuntimeMessage.messageId)[b.2]? = some b.1.messageId := by
    rw [List.getElem?_map, hgb]
    rfl
  have hlt : a.2 < (S.map RuntimeMessage.messageId).length :=
    (List.getElem?_eq_some_iff.1 hka).1
  have hk : a.2 = b.2 :=
    (List.getElem?_inj hlt hids).1 (by rw [hka, hkb, h])
  rw [hk, hgb] at hga
  exact Prod.ext (Option.some.inj hga).symm hk

theorem messageId_mem_ensure {before after : List RuntimeMessage}
    (hids : ((before ++ m :: after).map RuntimeMessage.messageId).Nodup) :
    m.messageId ∈ (ensureToolResultPairing (before ++ m :: after)).map
        RuntimeMessage.messageId
      ↔ ¬ Emptied before m after := by
  have hentry : (m, before.length) ∈ (before ++ m :: after).zipIdx :=
    mem_zipIdx_split.2 ⟨before, after, rfl, rfl⟩
  rw [ensure_eq_repaired, List.map_map, ← mem_leftOver_iff]
  refine ⟨fun h => ?_, fun h => List.mem_map.2 ⟨_, h, rfl⟩⟩
  obtain ⟨entry, hleft, hid⟩ := List.mem_map.1 h
  have hsame := entry_unique hids (List.mem_filter.1 hleft).1 hentry hid
  rw [← hsame]
  exact hleft

-- =============== check

theorem mem_toolMarks {mark : Mark String} :
    mark ∈ toolMarks messages ↔ ∃ m ∈ messages, ∃ b ∈ m.content,
      toolMark m.role b = some mark := by
  unfold toolMarks spread
  simp only [List.mem_flatMap, Option.mem_toList]

theorem mem_toolResultIds :
    id ∈ toolResultIds messages ↔ .reply true id ∈ toolMarks messages := by
  unfold toolResultIds
  rw [mem_toolMarks, List.mem_flatMap]
  refine ⟨fun h => ?_, fun h => ?_⟩
  · obtain ⟨m, hm, hid⟩ := h
    obtain ⟨hmem, hrole⟩ := List.mem_filter.1 hm
    obtain ⟨b, hb, heq⟩ := List.mem_filterMap.1 hid
    refine ⟨m, hmem, b, hb, ?_⟩
    cases b with
    | toolResult toolUseId content isError =>
      cases heq
      rw [of_decide_eq_true hrole]
      rfl
    | _ => cases heq
  · obtain ⟨m, hm, b, hb, hmark⟩ := h
    cases b with
    | toolResult toolUseId content isError =>
      injection (Option.some.inj hmark) with hrole hid
      refine ⟨m, List.mem_filter.2 ⟨hm, hrole⟩, ?_⟩
      exact List.mem_filterMap.2 ⟨_, hb, congrArg some hid⟩
    | _ => cases hmark

theorem marks_of_mem_assistantToolUseIds
    (h : id ∈ assistantToolUseIds messages) :
    .ask true id ∈ toolMarks messages
      ∨ .reply false id ∈ toolMarks messages := by
  obtain ⟨m, hm, hid⟩ := List.mem_flatMap.1 h
  obtain ⟨hmem, hrole⟩ := List.mem_filter.1 hm
  obtain ⟨b, hb, heq⟩ := List.mem_filterMap.1 hid
  have hassistant : m.role = .assistant := of_decide_eq_true hrole
  cases b with
  | toolUse toolUseId name input =>
    cases heq
    refine Or.inl (mem_toolMarks.2 ⟨m, hmem, _, hb, ?_⟩)
    rw [hassistant]
    rfl
  | toolResult toolUseId content isError =>
    cases heq
    refine Or.inr (mem_toolMarks.2 ⟨m, hmem, _, hb, ?_⟩)
    rw [hassistant]
    rfl
  | _ => cases heq

theorem mem_assistantToolUseIds_of_ask
    (h : .ask true id ∈ toolMarks messages) :
    id ∈ assistantToolUseIds messages := by
  obtain ⟨m, hm, b, hb, hmark⟩ := mem_toolMarks.1 h
  cases b with
  | toolUse toolUseId name input =>
    injection (Option.some.inj hmark) with hrole hid
    refine List.mem_flatMap.2 ⟨m, List.mem_filter.2 ⟨hm, hrole⟩, ?_⟩
    exact List.mem_filterMap.2 ⟨_, hb, congrArg some hid⟩
  | _ => cases hmark

theorem ids_ensure (S : List RuntimeMessage) (id : String) :
    id ∈ toolResultIds (ensureToolResultPairing S)
      ↔ id ∈ assistantToolUseIds (ensureToolResultPairing S) := by
  have hkept : ∀ {mark}, mark ∈ toolMarks (ensureToolResultPairing S) →
      ∃ front back, toolMarks (ensureToolResultPairing S)
          = front ++ mark :: back ∧ Kept front back mark := by
    intro mark hmark
    obtain ⟨front, back, hsplit⟩ := List.append_of_mem hmark
    refine ⟨front, back, hsplit, ?_⟩
    rw [toolMarks_ensure] at hsplit
    exact kept_of_survivors (repairs_keepMark S) hsplit
  refine ⟨fun h => ?_, fun h => ?_⟩
  · obtain ⟨front, back, hsplit, -, hask, -⟩ :=
      hkept (mem_toolResultIds.1 h)
    refine mem_assistantToolUseIds_of_ask ?_
    rw [hsplit]
    exact List.mem_append_left _ hask
  · rcases marks_of_mem_assistantToolUseIds h with hask | hreply
    · obtain ⟨front, back, hsplit, hanswered⟩ := hkept hask
      refine mem_toolResultIds.2 ?_
      rw [hsplit]
      exact hanswered.subset (List.mem_cons_of_mem _ (List.mem_singleton_self _))
    · obtain ⟨front, back, -, hplaced, -⟩ := hkept hreply
      cases hplaced

theorem toolPairSignature_ensure (hS : S.Sublist messages)
    (h : id ∈ toolPairSignature (ensureToolResultPairing S)) :
    id ∈ toolPairSignature messages := by
  have hmarks : ∀ {mark}, mark ∈ toolMarks (ensureToolResultPairing S) →
      mark ∈ toolMarks messages := by
    intro mark hmark
    rw [toolMarks_ensure] at hmark
    have hmem := survivors_sublist.subset hmark
    rw [placedMarks_marks] at hmem
    obtain ⟨m, hm, hb⟩ := mem_toolMarks.1 hmem
    exact mem_toolMarks.2 ⟨m, hS.subset hm, hb⟩
  obtain ⟨hask, hreply⟩ := List.mem_filter.1 h
  have hresult := of_decide_eq_true hreply
  have hanswered := mem_toolResultIds.1 hresult
  refine List.mem_filter.2 ⟨?_, decide_eq_true ?_⟩
  · rcases marks_of_mem_assistantToolUseIds hask with hmark | hmark
    · exact mem_assistantToolUseIds_of_ask (hmarks hmark)
    · obtain ⟨front, back, hsplit⟩ := List.append_of_mem hmark
      rw [toolMarks_ensure] at hsplit
      obtain ⟨hplaced, -⟩ := kept_of_survivors (repairs_keepMark S) hsplit
      cases hplaced
  · exact mem_toolResultIds.2 (hmarks hanswered)

theorem required_all_iff (messages : List RuntimeMessage)
    (p : RuntimeMessage → Bool) :
    (((messages.takeWhile fun m => m.role = .system).all p
        && (messages.reverse.find? fun m => m.role = .user).all p)
        && (messages.filter requiresProjectionPin).all p) = true
      ↔ ∀ m, Required messages m → p m = true := by
  simp only [Bool.and_eq_true, List.all_eq_true, Option.all_eq_true,
    List.mem_filter]
  refine ⟨fun h m hm => ?_, fun h => ⟨⟨?_, ?_⟩, ?_⟩⟩
  · rcases hm with hsystem | hlatest | hpinned
    · exact h.1.1 m hsystem
    · exact h.1.2 m hlatest
    · exact h.2 m hpinned
  · exact fun m hm => h m (Or.inl hm)
  · exact fun m hm => h m (Or.inr (Or.inl hm))
  · exact fun m hm => h m (Or.inr (Or.inr hm))

theorem projectionInvariants_iff
    (hids : (messages.map RuntimeMessage.messageId).Nodup) (limit : Int) :
    projectionInvariants messages
        (ensureToolResultPairing (staying messages limit)) = true
      ↔ ¬ LosesRequired messages limit := by
  have hpairs : (toolPairSignature
      (ensureToolResultPairing (staying messages limit))).all
        (fun id => id ∈ toolPairSignature messages) = true := by
    refine List.all_eq_true.2 fun id hid => decide_eq_true ?_
    exact toolPairSignature_ensure (staying_sublist messages limit) hid
  have hsame : (toolPairSignature messages).all (fun id =>
      (id ∈ toolResultIds (ensureToolResultPairing (staying messages limit))
          : Bool)
        == (id ∈ assistantToolUseIds
          (ensureToolResultPairing (staying messages limit)) : Bool))
      = true := by
    refine List.all_eq_true.2 fun id _ => beq_iff_eq.2 ?_
    exact decide_eq_decide.2 (ids_ensure (staying messages limit) id)
  have hnodup : ((staying messages limit).map
      RuntimeMessage.messageId).Nodup :=
    hids.sublist ((staying_sublist messages limit).map _)
  unfold projectionInvariants
  dsimp only
  rw [hpairs, hsame, Bool.and_true, Bool.and_true, required_all_iff]
  refine ⟨fun h hloses => ?_, fun h m hm => decide_eq_true ?_⟩
  · obtain ⟨before, m, after, hsplit, hm, hempty⟩ := hloses
    have hid := of_decide_eq_true (h m hm)
    rw [hsplit] at hid hnodup
    exact (messageId_mem_ensure hnodup).1 hid hempty
  · obtain ⟨before, after, hsplit⟩ :=
      List.append_of_mem (required_stays limit hm)
    rw [hsplit] at hnodup ⊢
    refine (messageId_mem_ensure hnodup).2 fun hempty => h ?_
    exact ⟨before, m, after, hsplit, hm, hempty⟩

-- ============== result

theorem paired_ensure (hdistinct : DistinctIds messages) (limit : Int) :
    Paired (toolMarks
      (ensureToolResultPairing (staying messages limit))) := by
  rw [toolMarks_ensure, paired_iff_asked_once (repairs_keepMark _),
    placedMarks_marks]
  intro i _
  have hsub : (toolMarks (staying messages limit)).Sublist
      (toolMarks messages) :=
    (staying_sublist messages limit).flatMap _
  exact (hsub.countP_le (p := asks i)).trans (hdistinct i)

theorem forall₂_trimmed {whole : RuntimeMessage → Prop}
    (h : SparesBlocks whole messages limit) :
    List.Forall₂ (Trimmed fun m => Required messages m ∨ whole m)
      ((leftOver (staying messages limit)).map Prod.fst)
      (ensureToolResultPairing (staying messages limit)) := by
  rw [ensure_eq_repaired, List.forall₂_map_left_iff,
    List.forall₂_map_right_iff, List.forall₂_same]
  intro entry hentry
  obtain ⟨before, after, hsplit, hk, hleft⟩ := leftOver_split hentry
  refine ⟨rfl, ?_, fun hwhole => ?_⟩
  · have hsub : (repairedBlocks (observeMessages (staying messages limit))
        entry).Sublist (entry.1.content.zipIdx.map Prod.fst) :=
      List.Sublist.map Prod.fst List.filter_sublist
    rwa [List.zipIdx_map_fst] at hsub
  · have huntouched := (h _ _ _ hsplit hwhole).resolve_left hleft
    have hblocks := repairedBlocks_self_iff.2 huntouched
    rw [← hsplit, hk] at hblocks
    unfold repaired
    rw [hblocks]

theorem leftOver_sublist (messages : List RuntimeMessage) (limit : Int) :
    ((leftOver (staying messages limit)).map Prod.fst).Sublist messages := by
  have h : ((leftOver (staying messages limit)).map Prod.fst).Sublist
      ((staying messages limit).zipIdx.map Prod.fst) :=
    List.Sublist.map Prod.fst List.filter_sublist
  rw [List.zipIdx_map_fst] at h
  exact h.trans (staying_sublist messages limit)

theorem required_leftOver (h : ¬ LosesRequired messages limit)
    (hm : Required messages m) :
    m ∈ (leftOver (staying messages limit)).map Prod.fst := by
  obtain ⟨before, after, hsplit⟩ :=
    List.append_of_mem (required_stays limit hm)
  refine List.mem_map.2 ⟨(m, before.length), ?_, rfl⟩
  rw [hsplit]
  exact mem_leftOver_iff.2 fun hempty =>
    h ⟨before, m, after, hsplit, hm, hempty⟩

theorem source_of_mem {R : α → β → Prop} {sub : List α} {out : List β}
    (h : List.Forall₂ R sub out) {y : β} (hy : y ∈ out) :
    ∃ x ∈ sub, R x y := by
  induction h with
  | nil => cases hy
  | cons hxy _ ih =>
    rcases List.mem_cons.1 hy with heq | hmem
    · exact ⟨_, List.mem_cons_self .., heq ▸ hxy⟩
    · obtain ⟨x, hx, hR⟩ := ih hmem
      exact ⟨x, List.mem_cons_of_mem _ hx, hR⟩

theorem sparesBlocks_of_projected
    (hids : (messages.map RuntimeMessage.messageId).Nodup)
    {whole : RuntimeMessage → Prop} (h : Projected whole messages
      (ensureToolResultPairing (staying messages limit))) :
    SparesBlocks whole messages limit := by
  intro before m after hsplit hwhole
  by_cases hempty : Emptied before m after
  · exact Or.inl hempty
  · refine Or.inr (repairedBlocks_self_iff.1 ?_)
    have hleft := mem_leftOver_iff.2 hempty
    rw [← hsplit] at hleft ⊢
    have hout : repaired (staying messages limit) (m, before.length)
        ∈ ensureToolResultPairing (staying messages limit) := by
      rw [ensure_eq_repaired]
      exact List.mem_map_of_mem hleft
    have hm : m ∈ messages := by
      refine (staying_sublist messages limit).subset ?_
      rw [hsplit]
      exact List.mem_append_right _ (List.mem_cons_self ..)
    have hsame : ∀ n ∈ messages, n.messageId = m.messageId → n = m :=
      fun n hn hid => List.inj_on_of_nodup_map hids hn hm hid
    have hback : repaired (staying messages limit) (m, before.length) = m := by
      rcases h with hinput | ⟨sub, hsub, htrimmed, -, -⟩
      · rw [hinput] at hout
        exact hsame _ hout rfl
      · obtain ⟨n, hn, hshape, -, hkeep⟩ := source_of_mem htrimmed hout
        have hnm : n = m :=
          hsame n (hsub.subset hn)
            (congrArg RuntimeMessage.messageId hshape).symm
        rw [hnm] at hkeep
        exact hkeep hwhole
    exact congrArg RuntimeMessage.content hback

theorem applyProjectionPass_skipped
    (h : (messages.length : Int) ≤ limit ∨ ∀ m ∈ messages, m.role = .system) :
    applyProjectionPass (some limit) messages = messages := by
  unfold applyProjectionPass
  dsimp only
  split
  · rfl
  · next hlong =>
    have hall : messages.all (fun m => m.role = .system) = true :=
      List.all_eq_true.2 fun m hm =>
        decide_eq_true (h.resolve_left hlong m hm)
    rw [if_pos hall]

/-- What the pass gives where it is not skipped. -/
theorem applyProjectionPass_cases
    (hids : (messages.map RuntimeMessage.messageId).Nodup)
    (h : ¬ ((messages.length : Int) ≤ limit
      ∨ ∀ m ∈ messages, m.role = .system)) :
    LosesRequired messages limit
        ∧ applyProjectionPass (some limit) messages = messages
      ∨ ¬ LosesRequired messages limit
        ∧ applyProjectionPass (some limit) messages
          = ensureToolResultPairing (staying messages limit) := by
  obtain ⟨hlong, hsome⟩ := not_or.1 h
  have hall : ¬ messages.all (fun m => m.role = .system) = true :=
    fun hall => hsome fun m hm =>
      of_decide_eq_true (List.all_eq_true.1 hall m hm)
  have hcheck := projectionInvariants_iff hids limit
  unfold applyProjectionPass
  dsimp only
  rw [if_neg hlong, if_neg hall, selectedMessages_eq]
  by_cases hloses : LosesRequired messages limit
  · exact Or.inl ⟨hloses, if_neg fun hpass => hcheck.1 hpass hloses⟩
  · exact Or.inr ⟨hloses, if_pos (hcheck.2 hloses)⟩

/-- The projection keeps what it must just when it is skipped, when a
required message would be left without any block (the check then gives the
input back), or when every tool block of the required messages keeps its
partner in view. -/
theorem projected_iff (whole : RuntimeMessage → Prop)
    (maxActiveMessages : Option Int) {messages : List RuntimeMessage}
    (hids : (messages.map RuntimeMessage.messageId).Nodup)
    (hdistinct : DistinctIds messages) :
    Projected whole messages (applyProjectionPass maxActiveMessages messages)
      ↔ Skipped maxActiveMessages messages
        ∨ ∃ limit, maxActiveMessages = some limit
          ∧ (LosesRequired messages limit
            ∨ SparesBlocks whole messages limit) := by
  cases maxActiveMessages with
  | none =>
    refine iff_of_true (Or.inl rfl) (Or.inl ?_)
    exact fun limit h => nomatch h
  | some limit =>
    by_cases hskip : (messages.length : Int) ≤ limit
        ∨ ∀ m ∈ messages, m.role = .system
    · refine iff_of_true (Or.inl (applyProjectionPass_skipped hskip))
        (Or.inl ?_)
      intro limit' heq
      cases heq
      exact hskip
    · have hcut : ∀ P : Int → Prop, (Skipped (some limit) messages ∨ ∃ limit',
          some limit = some limit' ∧ P limit') ↔ P limit := by
        refine fun P => ⟨fun h => ?_, fun h => Or.inr ⟨limit, rfl, h⟩⟩
        rcases h with hskipped | ⟨limit', heq, hP⟩
        · exact absurd (hskipped limit rfl) hskip
        · cases heq
          exact hP
      rw [hcut fun limit => LosesRequired messages limit
        ∨ SparesBlocks whole messages limit]
      rcases applyProjectionPass_cases hids hskip with ⟨hloses, hpass⟩
        | ⟨hkeeps, hpass⟩
      · exact iff_of_true (Or.inl hpass) (Or.inl hloses)
      · rw [hpass, or_iff_right hkeeps]
        refine ⟨sparesBlocks_of_projected hids, fun hspares => ?_⟩
        exact Or.inr ⟨_, leftOver_sublist messages limit,
          forall₂_trimmed hspares,
          fun m hm => required_leftOver hkeeps hm,
          paired_ensure hdistinct limit⟩

def repliedMessages : List RuntimeMessage :=
  let message := fun (messageId : String) (role : MessageRole)
      (content : List ContentBlock) =>
    { messageId := messageId, role := role, content := content,
      createdAt := newYear, attachments := [], metadata := []
      : RuntimeMessage }
  [message "a1" .assistant [.toolUse "call_1" "ls" (.mapping [])],
    message "u1" .user [.toolResult "call_1" (.scalar (.str "x")) false,
      .text "and now?"]]

theorem repliedMessages_marks : toolMarks repliedMessages
    = [.ask true "call_1", .reply true "call_1"] := rfl

theorem repliedMessages_ids :
    (repliedMessages.map RuntimeMessage.messageId).Nodup := by decide

theorem repliedMessages_distinct : DistinctIds repliedMessages := by
  intro i
  rw [repliedMessages_marks, List.countP_cons,
    List.countP_cons_of_neg (by simp)]
  split
  · exact le_refl 1
  · exact Nat.zero_le 1

/-- With one message in view, the latest one of the user loses its
result. -/
theorem replied_not_projected (whole : RuntimeMessage → Prop) :
    ¬ Projected whole repliedMessages
      (applyProjectionPass (some 1) repliedMessages) := by
  have hout : (applyProjectionPass (some 1) repliedMessages).map
      (fun m => m.content.length) = [1] := rfl
  intro h
  rcases h with hinput | ⟨sub, hsub, htrimmed, hrequired, -⟩
  · rw [hinput] at hout
    cases hout
  · have hlatest : Required repliedMessages
        (repliedMessages.getLast (List.cons_ne_nil _ _)) := Or.inr (Or.inl rfl)
    obtain ⟨m', hm', -, -, hkeep⟩ :=
      source_of_mem htrimmed.flip (hrequired _ hlatest)
    rw [hkeep (Or.inl hlatest)] at hm'
    have hlength := List.mem_map_of_mem (f := fun m => m.content.length) hm'
    rw [hout] at hlength
    cases List.mem_singleton.1 hlength

/-- Tool calls and results that are paired do not help: the pass may part
them and keep the message. -/
theorem latest_user_loses_result :
    ¬ ∀ (maxActiveMessages : Option Int) (messages : List RuntimeMessage),
      (messages.map RuntimeMessage.messageId).Nodup →
      DistinctIds messages → Paired (toolMarks messages) →
      Projected (fun _ => False) messages
        (applyProjectionPass maxActiveMessages messages) := by
  intro h
  refine replied_not_projected _ (h (some 1) repliedMessages
    repliedMessages_ids repliedMessages_distinct ?_)
  rw [repliedMessages_marks]
  intro pre mark post hsplit
  cases pre with
  | nil =>
    obtain ⟨hmark, hpost⟩ := List.cons_eq_cons.1 hsplit
    rw [← hmark, ← hpost]
    exact ⟨rfl, rfl⟩
  | cons first pre =>
    obtain ⟨hfirst, hrest⟩ := List.cons_eq_cons.1 hsplit
    cases pre with
    | nil =>
      obtain ⟨hmark, -⟩ := List.cons_eq_cons.1 hrest
      rw [← hmark, ← hfirst]
      exact ⟨rfl, List.mem_singleton_self _⟩
    | cons second pre => cases pre <;> cases hrest

/-- The pass leaves the result without its call. -/
theorem replied_loses_blocks :
    ¬ SparesBlocks (fun _ => True) repliedMessages 1 := by
  intro h
  refine replied_not_projected (fun _ => True) ?_
  exact (projected_iff (fun _ => True) (some 1) repliedMessages_ids
    repliedMessages_distinct).2 (Or.inr ⟨1, rfl, Or.inr h⟩)

end WeaveRuntime.ContextWindow
