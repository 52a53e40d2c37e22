/-
Publishing a message that is in the inbox already.

Both mailboxes raise `FileExistsError`. In memory that is all. On disk the
document is written beside its place first, under a name that starts with
`.tmp-` and ends with `.json`, and the error path leaves it there. The
pattern `*.json` matches that name as well: `claim_next` hands the document
out, and `has_pending_inbox` counts it.

That the two mailboxes can be told apart needs no look at the message. As
many claims as the inbox had documents empty it, if each is made late
enough; after a refused publish one document is left (`length_claims`).
-/
import WeaveRuntime.Teammates.Fencing

namespace WeaveRuntime.Teammates

open Lib
open Python

-- ========= later calls

/-- What may be called after a publish. -/
inductive LaterCall where
  | call (call : MailboxCall)
  | hasPendingInbox
  | listClaimed

inductive LaterReply where
  | reply (reply : MailboxReply)
  | pending (pending : Bool)
  | claimed (envelopes : List MailboxEnvelope)

/-- A mailbox, with its two listings. -/
structure MailboxView (σ : Type) where
  store : TeammateMailboxStore σ
  hasPendingInbox : σ → Bool
  listClaimed : σ → List MailboxEnvelope

namespace MailboxView

variable {σ : Type} (V : MailboxView σ) (config : MailboxConfig)

def answer : LaterCall → Method σ MailboxError LaterReply
  | .call call => do
    let reply ← V.store.run config call
    pure (.reply reply)
  | .hasPendingInbox => do
    let pending ← Method.read V.hasPendingInbox
    pure (.pending pending)
  | .listClaimed => do
    let envelopes ← Method.read V.listClaimed
    pure (.claimed envelopes)

/-- What a sequence of calls returns and raises, call by call. -/
def replies : σ → List LaterCall → List (Except MailboxError LaterReply)
  | _, [] => []
  | s, call :: calls =>
    let outcome := (V.answer config call).run s
    outcome.1 :: replies outcome.2 calls

/-- The state a sequence of calls leaves. -/
def stateAfter : σ → List LaterCall → σ
  | s, [] => s
  | s, call :: calls => stateAfter ((V.answer config call).run s).2 calls

/-- A publish raises `FileExistsError`, and nothing that is called later
tells that it was made. -/
def Unnoticed (s : σ) (envelope : MailboxEnvelope) (tempId : UuidHex) :
    Prop :=
  ((V.store.publish envelope tempId).run s).1
      = .error (.fileExists envelope.messageId)
    ∧ ∀ calls, V.replies config ((V.store.publish envelope tempId).run s).2
      calls = V.replies config s calls

theorem replies_concat (s : σ) (calls : List LaterCall) (last : LaterCall) :
    V.replies config s (calls ++ [last]) = V.replies config s calls
      ++ [((V.answer config last).run (V.stateAfter config s calls)).1] := by
  induction calls generalizing s with
  | nil => rfl
  | cons call calls ih => exact congrArg _ (ih _)

theorem last_reply {s t : σ} {calls : List LaterCall} {last : LaterCall}
    (h : V.replies config t (calls ++ [last])
      = V.replies config s (calls ++ [last])) :
    ((V.answer config last).run (V.stateAfter config t calls)).1
      = ((V.answer config last).run (V.stateAfter config s calls)).1 := by
  rw [replies_concat, replies_concat] at h
  have hlast := List.append_inj_right' h rfl
  exact (List.cons.inj hlast).1

end MailboxView

-- =========== in memory

namespace InMemory

def hasPendingInbox (s : InMemoryMailbox) : Bool := !s.inbox.keys.isEmpty

/-- The order of `sorted(claims)`: by message, then by claim. -/
def KeyLe (a b : UuidHex × String) : Prop :=
  a.1.text < b.1.text ∨ (a.1.text = b.1.text ∧ a.2 ≤ b.2)

instance : DecidableRel KeyLe := fun _ _ =>
  inferInstanceAs (Decidable (_ ∨ _))

def listClaimed (s : InMemoryMailbox) : List MailboxEnvelope :=
  (s.claimed.keys.insertionSort KeyLe).filterMap s.claimed.get?

def view : MailboxView InMemoryMailbox :=
  ⟨store, hasPendingInbox, listClaimed⟩

theorem unnoticed (config : MailboxConfig) {s : InMemoryMailbox}
    {envelope : MailboxEnvelope} (hheld : envelope.messageId ∈ s.inbox.keys)
    (tempId : UuidHex) : view.Unnoticed config s envelope tempId := by
  have hrun : (view.store.publish envelope tempId).run s
      = (.error (.fileExists envelope.messageId), s) :=
    run_publish_taken hheld
  unfold MailboxView.Unnoticed
  rw [hrun]
  exact ⟨rfl, fun calls => rfl⟩

end InMemory

-- ============= on disk

namespace FileBacked

def inboxNames (s : FileBackedMailbox) : List String := glob s.inbox "*.json"

def hasPendingInbox (s : FileBackedMailbox) : Bool :=
  !(inboxNames s).isEmpty

def listClaimed (s : FileBackedMailbox) : List MailboxEnvelope :=
  (glob s.claimed "*.json").filterMap fun name =>
    (s.claimed.get? name).map MailboxEnvelope.reload

def view : MailboxView FileBackedMailbox :=
  ⟨store, hasPendingInbox, listClaimed⟩

theorem fnmatch_tempName (m tempId : UuidHex) :
    fnmatch (tempName m tempId) "*.json" = true := by
  have hpattern : fnmatch (tempName m tempId) ("" ++ "*" ++ ".json") = true
      ↔ ∃ mid, (tempName m tempId).toList
        = "".toList ++ mid ++ ".json".toList :=
    fnmatch_star_iff (fun d hd => by cases hd) plain_json _
  refine hpattern.2 ⟨(".tmp-" ++ m.text ++ "-" ++ tempId.text).toList, ?_⟩
  unfold tempName
  simp only [String.toList_append]
  rfl

section Scan

variable {directory : Dict String MailboxEnvelope} {pattern name : String}

theorem length_glob_insert (hnew : name ∉ directory.keys)
    (hmatch : fnmatch name pattern = true) (envelope : MailboxEnvelope) :
    (glob (directory.insert name envelope) pattern).length
      = (glob directory pattern).length + 1 := by
  unfold glob
  rw [List.length_insertionSort, List.length_insertionSort,
    Dict.keys_insert_of_not_mem hnew, List.filter_append, List.length_append]
  simp [hmatch]

theorem length_glob_erase (hname : name ∈ glob directory pattern) :
    (glob (directory.erase name) pattern).length
      = (glob directory pattern).length - 1 := by
  obtain ⟨hkey, hmatch⟩ := mem_glob.1 hname
  have hkeys : (directory.erase name).keys
      = directory.keys.filter fun k => k ≠ name := by
    unfold Dict.keys
    rw [Dict.entries_erase, List.filter_map]
    rfl
  have hmem : name ∈ directory.keys.filter fun k => fnmatch k pattern :=
    List.mem_filter.2 ⟨hkey, hmatch⟩
  have hnodup := directory.nodup_keys.filter fun k => fnmatch k pattern
  unfold glob
  rw [List.length_insertionSort, List.length_insertionSort, hkeys,
    List.filter_comm, ← List.length_erase_of_mem hmem,
    hnodup.erase_eq_filter]
  refine congrArg List.length (List.filter_congr fun k _ => ?_)
  rw [Bool.eq_iff_iff, decide_eq_true_iff, bne_iff_ne]

end Scan

/-- No document of the inbox has to wait. -/
def AllReady (s : FileBackedMailbox) (now : Datetime) : Prop :=
  ∀ envelope ∈ s.inbox.values, envelope.retryReady now = true

theorem exists_ready (envelopes : List MailboxEnvelope) :
    ∃ now, ∀ envelope ∈ envelopes, envelope.retryReady now = true := by
  have hbound : ∃ now : Datetime, ∀ envelope ∈ envelopes, ∀ at' : Datetime,
      envelope.nextRetryAfter = some at' → at'.stamp ≤ now.stamp := by
    induction envelopes with
    | nil => exact ⟨sampleTime, fun e he => by cases he⟩
    | cons first rest ih =>
      obtain ⟨now, hnow⟩ := ih
      cases hfirst : first.nextRetryAfter with
      | none =>
        refine ⟨now, List.forall_mem_cons.2 ⟨?_, hnow⟩⟩
        intro at' hat
        rw [hfirst] at hat
        cases hat
      | some due =>
        rcases Nat.le_total due.stamp now.stamp with hle | hle
        · refine ⟨now, List.forall_mem_cons.2 ⟨?_, hnow⟩⟩
          intro at' hat
          cases hfirst.symm.trans hat
          exact hle
        · refine ⟨due, List.forall_mem_cons.2 ⟨?_, ?_⟩⟩
          · intro at' hat
            cases hfirst.symm.trans hat
            exact le_rfl
          · intro e he at' hat
            exact (hnow e he at' hat).trans hle
  obtain ⟨now, hnow⟩ := hbound
  refine ⟨now, fun envelope he => ?_⟩
  unfold MailboxEnvelope.retryReady
  cases hdue : envelope.nextRetryAfter with
  | none => rfl
  | some at' => exact decide_eq_true (hnow envelope he at' hdue)

/-- A claim of anybody. -/
def anyClaim (now : Datetime) (claimId : UuidHex) : LaterCall :=
  .call (.claimNext "" none now claimId)

theorem length_claim (config : MailboxConfig) {s : FileBackedMailbox}
    {now : Datetime} (hready : AllReady s now) (claimId : UuidHex) :
    (inboxNames ((view.answer config (anyClaim now claimId)).run s).2).length
        = (inboxNames s).length - 1
      ∧ AllReady ((view.answer config (anyClaim now claimId)).run s).2
        now := by
  cases hnext : nextReady s.inbox now with
  | none =>
    have hrun : ((view.answer config (anyClaim now claimId)).run s).2
        = s := by
      show ((do
        let reply ← (do
          let claimed ← claimNext config "" none now claimId
          pure ((claimed.map MailboxReply.envelope).getD .nothing))
        pure (LaterReply.reply reply)).run s).2 = s
      unfold claimNext
      simp [hnext]
    have hempty : inboxNames s = [] := by
      refine List.eq_nil_iff_forall_not_mem.2 fun name hname => ?_
      obtain ⟨hkey, -⟩ := mem_glob.1 hname
      obtain ⟨e, he⟩ := Dict.mem_keys_iff.1 hkey
      have hmem : (name, e.reload) ∈ (glob s.inbox "*.json").filterMap
          fun source => (s.inbox.get? source).map fun document =>
            (source, document.reload) :=
        List.mem_filterMap.2 ⟨name, hname, by rw [he]; rfl⟩
      have hwaits := List.find?_eq_none.1 hnext _ hmem
      exact hwaits (hready e (Dict.mem_values_iff.2 ⟨name, he⟩))
    rw [hrun, hempty]
    exact ⟨rfl, hready⟩
  | some entry =>
    obtain ⟨source, e⟩ := entry
    have hrun : ((view.answer config (anyClaim now claimId)).run s).2.inbox
        = s.inbox.erase source := by
      show ((do
        let reply ← (do
          let claimed ← claimNext config "" none now claimId
          pure ((claimed.map MailboxReply.envelope).getD .nothing))
        pure (LaterReply.reply reply)).run s).2.inbox = _
      unfold claimNext
      simp [hnext]
      rfl
    have hsource : source ∈ inboxNames s := by
      obtain ⟨name, hname, heq⟩ :=
        List.mem_filterMap.1 (List.mem_of_find?_eq_some hnext)
      obtain ⟨document, -, hpair⟩ := Option.map_eq_some_iff.1 heq
      cases hpair
      exact hname
    refine ⟨?_, ?_⟩
    · unfold inboxNames
      rw [hrun]
      exact length_glob_erase hsource
    · intro f hf
      rw [hrun] at hf
      obtain ⟨name, hname⟩ := Dict.mem_values_iff.1 hf
      refine hready f (Dict.mem_values_iff.2 ⟨name, ?_⟩)
      rw [Dict.get?_erase] at hname
      split at hname
      · cases hname
      · exact hname

theorem length_claims (config : MailboxConfig) {s : FileBackedMailbox}
    {now : Datetime} (hready : AllReady s now) (claimId : UuidHex) (n : Nat) :
    (inboxNames (view.stateAfter config s
      (List.replicate n (anyClaim now claimId)))).length
      = (inboxNames s).length - n := by
  induction n generalizing s with
  | zero => rfl
  | succ n ih =>
    obtain ⟨hlength, hready'⟩ := length_claim config hready claimId
    have hrest := ih hready'
    rw [hlength] at hrest
    exact hrest.trans (Nat.sub_sub _ 1 n |>.trans (by omega))

/-- The mailbox a refused publish leaves. -/
def withLeftover (s : FileBackedMailbox) (envelope : MailboxEnvelope)
    (tempId : UuidHex) : FileBackedMailbox :=
  { s with
    inbox := s.inbox.insert (tempName envelope.messageId tempId) envelope }

theorem noticed (config : MailboxConfig) {s : FileBackedMailbox}
    {envelope : MailboxEnvelope} {tempId : UuidHex}
    (hheld : inboxName envelope.messageId ∈ s.inbox.keys)
    (hfresh : tempName envelope.messageId tempId ∉ s.inbox.keys) :
    ¬ view.Unnoticed config s envelope tempId := by
  intro hunnoticed
  have hkeys : inboxName envelope.messageId ∈ (s.inbox.insert
      (tempName envelope.messageId tempId) envelope).keys :=
    Dict.mem_keys_insert.2 (Or.inr hheld)
  have hrun : (view.store.publish envelope tempId).run s
      = (.error (.fileExists envelope.messageId),
        withLeftover s envelope tempId) := run_publish_taken hkeys
  have hsame := hunnoticed.2
  rw [hrun] at hsame
  obtain ⟨now, hnow⟩ := exists_ready (envelope :: s.inbox.values)
  obtain ⟨hown, hothers⟩ := List.forall_mem_cons.1 hnow
  -- both inboxes are ready, and one has a document more
  have hready : AllReady (withLeftover s envelope tempId) now := by
    intro e he
    obtain ⟨name, hname⟩ := Dict.mem_values_iff.1 he
    replace hname : (s.inbox.insert (tempName envelope.messageId tempId)
      envelope).get? name = some e := hname
    rw [Dict.get?_insert] at hname
    split at hname
    · cases hname
      exact hown
    · exact hothers e (Dict.mem_values_iff.2 ⟨name, hname⟩)
  have hmore : (inboxNames (withLeftover s envelope tempId)).length
      = (inboxNames s).length + 1 :=
    length_glob_insert hfresh (fnmatch_tempName _ _) envelope
  have hlast := view.last_reply config (hsame (List.replicate
    (inboxNames s).length (anyClaim now tempId) ++ [.hasPendingInbox]))
  have hleft := length_claims config hready tempId (inboxNames s).length
  have hnone := length_claims config hothers tempId (inboxNames s).length
  rw [hmore, Nat.add_sub_cancel_left] at hleft
  rw [Nat.sub_self, List.length_eq_zero_iff] at hnone
  have hpending := LaterReply.pending.inj (Except.ok.inj hlast)
  replace hpending : (inboxNames (view.stateAfter config _ _)).isEmpty
    = (inboxNames (view.stateAfter config s _)).isEmpty :=
    Bool.not_inj hpending
  rw [hnone, List.isEmpty_nil, List.isEmpty_iff] at hpending
  rw [hpending] at hleft
  cases hleft

end FileBacked

-- ====== both mailboxes

/-- A mailbox of either kind. -/
inductive Mailbox where
  | inMemory (s : InMemoryMailbox)
  | fileBacked (s : FileBackedMailbox)

namespace Mailbox

def IsInMemory : Mailbox → Prop
  | .inMemory _ => True
  | .fileBacked _ => False

def Holds : Mailbox → UuidHex → Prop
  | .inMemory s, messageId => messageId ∈ s.inbox.keys
  | .fileBacked s, messageId => FileBacked.inboxName messageId ∈ s.inbox.keys

/-- The name of the temporary document is new. -/
def Fresh : Mailbox → UuidHex → UuidHex → Prop
  | .inMemory _, _, _ => True
  | .fileBacked s, messageId, tempId =>
    FileBacked.tempName messageId tempId ∉ s.inbox.keys

def Unnoticed (config : MailboxConfig) (m : Mailbox)
    (envelope : MailboxEnvelope) (tempId : UuidHex) : Prop :=
  match m with
  | .inMemory s => InMemory.view.Unnoticed config s envelope tempId
  | .fileBacked s => FileBacked.view.Unnoticed config s envelope tempId

end Mailbox

/-- A duplicate is refused without a trace by the mailbox in memory, and
never by the one on disk. -/
theorem duplicate_unnoticed_iff {config : MailboxConfig} {m : Mailbox}
    {envelope : MailboxEnvelope} {tempId : UuidHex}
    (hheld : m.Holds envelope.messageId)
    (hfresh : m.Fresh envelope.messageId tempId) :
    m.Unnoticed config envelope tempId ↔ m.IsInMemory := by
  cases m with
  | inMemory s =>
    exact iff_of_true (InMemory.unnoticed config hheld tempId) trivial
  | fileBacked s =>
    exact iff_of_false (FileBacked.noticed config hheld hfresh) id

-- ===== one item, twice

def freshId : UuidHex := ⟨"0000000000000000000000000000000a", by decide⟩

/-- The mailboxes that hold one item. -/
def sampleInMemory : InMemoryMailbox where
  inbox := Dict.empty.insert sampleItem.messageId sampleItem
  claimed := .empty
  done := .empty
  failed := .empty
  retry := .empty

def sampleFileBacked : FileBackedMailbox where
  inbox := Dict.empty.insert (FileBacked.inboxName sampleItem.messageId)
    sampleItem
  claimed := .empty
  done := .empty
  failed := .empty
  retry := .empty

theorem duplicate_unnoticed_inMemory :
    (Mailbox.inMemory sampleInMemory).Unnoticed sampleConfig sampleItem
      freshId :=
  (@duplicate_unnoticed_iff sampleConfig (.inMemory sampleInMemory)
    sampleItem freshId (List.mem_singleton_self _) trivial).2 trivial

/-- Whether a call found nothing to claim. -/
def foundNothing : Except MailboxError LaterReply → Bool
  | .ok (.reply .nothing) => true
  | _ => false

/-- The item is published again on disk. Two claims find it twice. -/
theorem duplicate_claimed_twice :
    ¬ (Mailbox.fileBacked sampleFileBacked).Unnoticed sampleConfig sampleItem
      freshId := by
  intro hunnoticed
  have hsame := congrArg (List.map foundNothing) (hunnoticed.2
    [FileBacked.anyClaim sampleTime freshId,
      FileBacked.anyClaim sampleTime freshId])
  have hafter : (FileBacked.view.replies sampleConfig
      ((FileBacked.view.store.publish sampleItem freshId).run
        sampleFileBacked).2
      [FileBacked.anyClaim sampleTime freshId,
        FileBacked.anyClaim sampleTime freshId]).map foundNothing
      = [false, false] := by decide +kernel
  have hbefore : (FileBacked.view.replies sampleConfig sampleFileBacked
      [FileBacked.anyClaim sampleTime freshId,
        FileBacked.anyClaim sampleTime freshId]).map foundNothing
      = [false, true] := by decide +kernel
  rw [hafter, hbefore] at hsame
  revert hsame
  decide

end WeaveRuntime.Teammates
