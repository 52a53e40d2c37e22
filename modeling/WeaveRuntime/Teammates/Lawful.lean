/-
A mailbox the orchestrator can rely on.

`LawfulMailbox` is a mailbox with the laws the orchestrator's calls use:
what is there is kept under the names made from it (`Keyed`), a heartbeat
makes and takes away no claim, and the list of the claims names each that
is there once. The mailbox in memory and the one on disk both are.
-/
import WeaveRuntime.Teammates.Conservation
import WeaveRuntime.Teammates.Service

namespace WeaveRuntime.Teammates

open Lib
open Python

-- ============== claims

section Claims

variable {ι κ : Type} [DecidableEq κ] {s : MailboxState ι κ}

/-- The same records are claimed, and everything else is the same. -/
structure SameClaims (s t : MailboxState ι κ) : Prop where
  claimed : ∀ k, t.claimed.contains k = s.claimed.contains k
  inbox : t.inbox = s.inbox
  done : t.done = s.done
  failed : t.failed = s.failed
  retry : t.retry = s.retry

theorem SameClaims.refl (s : MailboxState ι κ) : SameClaims s s :=
  ⟨fun _ => rfl, rfl, rfl, rfl, rfl⟩

theorem SameClaims.trans {s t u : MailboxState ι κ} (h : SameClaims s t)
    (h' : SameClaims t u) : SameClaims s u where
  claimed k := (h'.claimed k).trans (h.claimed k)
  inbox := h'.inbox.trans h.inbox
  done := h'.done.trans h.done
  failed := h'.failed.trans h.failed
  retry := h'.retry.trans h.retry

/-- A method that makes and takes away no claim. -/
def KeepsClaims {α : Type} (m : Method (MailboxState ι κ) MailboxError α) :
    Prop :=
  m.Evolves SameClaims

theorem sameClaims_rewrite {k : κ} (hlive : s.claimed.contains k = true)
    (e : MailboxEnvelope) :
    SameClaims s { s with claimed := s.claimed.insert k e } := by
  refine { SameClaims.refl s with claimed := fun k' => ?_ }
  rw [Bool.eq_iff_iff, Dict.contains_iff, Dict.contains_iff,
    Dict.mem_keys_insert]
  refine ⟨fun h => ?_, Or.inr⟩
  rcases h with rfl | h
  · exact Dict.contains_iff.1 hlive
  · exact h

theorem keepsClaims_bind {α β : Type}
    {m : Method (MailboxState ι κ) MailboxError α}
    {f : α → Method (MailboxState ι κ) MailboxError β} (hm : KeepsClaims m)
    (hf : ∀ a, KeepsClaims (f a)) : KeepsClaims (m >>= f) :=
  Method.evolves_bind (fun _ _ _ h h' => h.trans h') hm hf

theorem keepsClaims_heartbeat {M : TeammateMailboxStore (MailboxState ι κ)}
    (hread : ∀ m c, KeepsClaims (M.readClaim m c))
    (hupdate : ∀ e, KeepsClaims (M.updateClaim e)) (m : UuidHex) (c : String)
    (now : Datetime) : KeepsClaims (M.heartbeat m c now) :=
  keepsClaims_bind (hread m c) fun _ => hupdate _

end Claims

-- ============= mailbox

section Keyed

variable {ι κ : Type} [DecidableEq ι] [DecidableEq κ]

/-- What is there is kept under the names made from it. -/
structure Keyed (inboxKey : UuidHex → ι) (key : UuidHex → String → κ)
    (s : MailboxState ι κ) : Prop where
  waiting : ∀ k e, s.inbox.get? k = some e → k = inboxKey e.messageId
  labelled : Labelled key s

theorem Sound.keyed {inboxKey : UuidHex → ι} {key : UuidHex → String → κ}
    {s : MailboxState ι κ} {h : Delivery.History UuidHex String}
    (hs : Sound inboxKey key s h) : Keyed inboxKey key s :=
  ⟨hs.waiting, hs.labelled⟩

/-- A mailbox the orchestrator can rely on. -/
structure LawfulMailbox (ι κ : Type) [DecidableEq ι] [DecidableEq κ] extends
    TeammateMailbox ι κ where
  inboxKey : UuidHex → ι
  key : UuidHex → String → κ
  delivers : Delivers inboxKey key store
  publish_taken : ∀ (s : MailboxState ι κ) e tempId,
    Keyed inboxKey key s → inboxKey e.messageId ∈ s.inbox.keys →
    ∃ error t, (store.publish e tempId).run s = (.error error, t)
  /-- A heartbeat makes and takes away no claim. -/
  beats : ∀ m c now, KeepsClaims (store.heartbeat m c now)
  listed : ∀ (s : MailboxState ι κ), Labelled key s →
    ∀ e ∈ listClaimed s, ∃ c, e.claimId = some c
      ∧ s.claimed.contains (key e.messageId c) = true
  distinct : ∀ (s : MailboxState ι κ), Labelled key s →
    (listClaimed s).Pairwise fun e f => ∀ c d, e.claimId = some c →
      f.claimId = some d → key e.messageId c ≠ key f.messageId d

variable (M : LawfulMailbox ι κ)

def Live (e : MailboxEnvelope) (s : MailboxState ι κ) : Prop :=
  ∃ c, e.claimId = some c ∧ s.claimed.contains (M.key e.messageId c) = true

/-- The claim has left the claimed bucket: it is done, failed, or archived
with its message in the inbox again. -/
structure Left (m : UuidHex) (c : String) (s : MailboxState ι κ) : Prop where
  gone : s.claimed.contains (M.key m c) = false
  filed : s.done.contains (M.key m c) = true
    ∨ s.failed.contains (M.key m c) = true
    ∨ s.retry.contains (M.key m c) = true
      ∧ s.inbox.contains (M.inboxKey m) = true

def HasLeft (e : MailboxEnvelope) (s : MailboxState ι κ) : Prop :=
  ∃ c, e.claimId = some c ∧ Left M e.messageId c s

variable {M} {s t : MailboxState ι κ} {e f : MailboxEnvelope}

theorem Left.of_same {m : UuidHex} {c : String} (h : Left M m c s)
    (ht : SameClaims s t) : Left M m c t where
  gone := (ht.claimed _).trans h.gone
  filed := by
    rw [ht.done, ht.failed, ht.retry, ht.inbox]
    exact h.filed

theorem HasLeft.of_same (h : HasLeft M e s) (ht : SameClaims s t) :
    HasLeft M e t := by
  obtain ⟨c, hc, hleft⟩ := h
  exact ⟨c, hc, hleft.of_same ht⟩

theorem HasLeft.not_live (h : HasLeft M e s) : ¬ Live M e s := by
  intro hlive
  obtain ⟨c, hc, hleft⟩ := h
  obtain ⟨c', hc', hlive⟩ := hlive
  rw [hc] at hc'
  cases hc'
  rw [hleft.gone] at hlive
  cases hlive

theorem Live.of_same (h : Live M e s) (ht : SameClaims s t) : Live M e t := by
  obtain ⟨c, hc, hlive⟩ := h
  exact ⟨c, hc, (ht.claimed _).trans hlive⟩

theorem Live.congr (h : Live M e s) (hid : f.messageId = e.messageId)
    (hclaim : f.claimId = e.claimId) : Live M f s := by
  obtain ⟨c, hc, hlive⟩ := h
  exact ⟨c, hclaim.trans hc, hid ▸ hlive⟩

theorem contains_insert_self {d : Dict κ MailboxEnvelope} (k : κ)
    (v : MailboxEnvelope) : (d.insert k v).contains k = true :=
  Dict.contains_iff.2 (Dict.mem_keys_insert.2 (Or.inl rfl))

theorem contains_erase_self (d : Dict κ MailboxEnvelope) (k : κ) :
    (d.erase k).contains k = false := by
  rw [← Bool.not_eq_true, Dict.contains_iff, Dict.mem_keys_erase]
  exact fun h => h.1 rfl

theorem left_settle (s : MailboxState ι κ) (m : UuidHex) (c : String)
    {bucket : MailboxTerminalState} (hbucket : bucket ≠ .retry)
    (e : MailboxEnvelope) : Left M m c (s.settle bucket (M.key m c) e) := by
  refine ⟨?_, ?_⟩
  · rw [MailboxState.claimed_settle]
    exact contains_erase_self _ _
  · cases bucket with
    | done => exact Or.inl (contains_insert_self _ _)
    | failed => exact Or.inr (Or.inl (contains_insert_self _ _))
    | retry => exact absurd rfl hbucket

theorem keyed_erase (hs : Keyed M.inboxKey M.key s) (k : κ)
    (bucket : MailboxTerminalState) (e : MailboxEnvelope) :
    Keyed M.inboxKey M.key (s.settle bucket k e) := by
  refine ⟨fun i f hf => ?_, fun k' f hf => ?_⟩
  · rw [MailboxState.inbox_settle] at hf
    exact hs.waiting i f hf
  · rw [MailboxState.claimed_settle, Dict.get?_erase] at hf
    split at hf
    · cases hf
    · exact hs.labelled k' f hf

/-- Settling a claim that is there: it is taken away, unless the place of
the message in the inbox is taken, and then it raises. -/
theorem failOrRetry_run (hs : Keyed M.inboxKey M.key s) {c : String}
    (hc : e.claimId = some c)
    (hlive : s.claimed.contains (M.key e.messageId c) = true)
    (config : MailboxConfig) (reason : String) (r : Option Int)
    (now backoffEnd : Datetime) (tempId : UuidHex) :
    (∃ settled t, (M.store.failOrRetry config e reason r now backoffEnd
        tempId).run s = (.ok settled, t)
      ∧ Keyed M.inboxKey M.key t ∧ Left M e.messageId c t
      ∧ t.claimed = s.claimed.erase (M.key e.messageId c))
    ∨ (M.inboxKey e.messageId ∈ s.inbox.keys
      ∧ ∃ error t, (M.store.failOrRetry config e reason r now backoffEnd
        tempId).run s = (.error error, t)) := by
  have hrules := M.delivers.rules s e.messageId c hs.labelled hlive
  unfold TeammateMailboxStore.failOrRetry
  split
  · exact Or.inl ⟨_, _, Method.run_bind_of_ok (hrules.move
      (e.withTerminal .failed (some reason) now) .failed rfl hc),
      keyed_erase hs _ .failed _, left_settle s _ _ (by decide) _, rfl⟩
  · rw [Method.run_bind_of_ok (hrules.move
      (e.withTerminal .retry (some reason) now) .retry rfl hc)]
    have hkeyed := keyed_erase hs (M.key e.messageId c) .retry
      (e.withTerminal .retry (some reason) now)
    by_cases hfree : M.inboxKey e.messageId ∈ s.inbox.keys
    · refine Or.inr ⟨hfree, ?_⟩
      obtain ⟨error, t, hrun⟩ := M.publish_taken
        (s.settle .retry (M.key e.messageId c)
          (e.withTerminal .retry (some reason) now))
        ((e.withTerminal .retry (some reason) now).forRetry reason
          (config.nextRetryAfter backoffEnd)) tempId hkeyed hfree
      exact ⟨error, t, Method.run_bind_of_error hrun⟩
    · have hrun := M.delivers.publish
        (s.settle .retry (M.key e.messageId c)
          (e.withTerminal .retry (some reason) now))
        ((e.withTerminal .retry (some reason) now).forRetry reason
          (config.nextRetryAfter backoffEnd)) tempId hkeyed.waiting hfree
      refine Or.inl ⟨_, _, Method.run_bind_of_ok hrun, ⟨fun i f hf => ?_,
        hkeyed.labelled⟩, ⟨contains_erase_self _ _, Or.inr (Or.inr
          ⟨contains_insert_self _ _, contains_insert_self _ _⟩)⟩, rfl⟩
      dsimp only at hf
      rw [Dict.get?_insert] at hf
      split at hf
      · next hi =>
        cases hf
        exact hi
      · exact hkeyed.waiting i f hf

end Keyed

-- ============== listed

section Listed

variable {ι κ : Type} [DecidableEq κ] {key : UuidHex → String → κ}
  {s : MailboxState ι κ} {read : MailboxEnvelope → MailboxEnvelope}

def ReadsClaims (read : MailboxEnvelope → MailboxEnvelope) : Prop :=
  ∀ (e : MailboxEnvelope) (c : UuidHex), e.claimId = some c.text →
    (read e).messageId = e.messageId ∧ (read e).claimId = some c.text

theorem Labelled.read_at (hs : Labelled key s) (hread : ReadsClaims read)
    {k : κ} {e : MailboxEnvelope}
    (he : (s.claimed.get? k).map read = some e) :
    s.claimed.contains k = true
      ∧ ∃ c, e.claimId = some c ∧ k = key e.messageId c := by
  obtain ⟨kept, hkept, rfl⟩ := Option.map_eq_some_iff.1 he
  obtain ⟨c, hc, hk⟩ := hs k kept hkept
  obtain ⟨hid, hclaim⟩ := hread kept c hc
  exact ⟨contains_of_get? hkept, c.text, hclaim, by rw [hid, hk]⟩

theorem Labelled.listed (hs : Labelled key s) (hread : ReadsClaims read)
    {names : List κ} {e : MailboxEnvelope}
    (he : e ∈ names.filterMap fun k => (s.claimed.get? k).map read) :
    ∃ c, e.claimId = some c
      ∧ s.claimed.contains (key e.messageId c) = true := by
  obtain ⟨k, -, hk⟩ := List.mem_filterMap.1 he
  obtain ⟨hlive, c, hc, rfl⟩ := hs.read_at hread hk
  exact ⟨c, hc, hlive⟩

theorem Labelled.distinct (hs : Labelled key s) (hread : ReadsClaims read)
    {names : List κ} (hnames : names.Nodup) :
    (names.filterMap fun k => (s.claimed.get? k).map read).Pairwise
      fun e f => ∀ c d, e.claimId = some c → f.claimId = some d →
        key e.messageId c ≠ key f.messageId d := by
  refine List.Pairwise.filterMap _ (fun k k' hne e he f hf => ?_) hnames
  obtain ⟨-, c, hc, rfl⟩ := hs.read_at hread he
  obtain ⟨-, d, hd, rfl⟩ := hs.read_at hread hf
  intro c' d' hc' hd'
  rw [hc] at hc'
  rw [hd] at hd'
  cases hc'
  cases hd'
  exact hne

end Listed

-- =========== in memory

namespace InMemory

theorem heldKey_ensures (e : MailboxEnvelope) (s : InMemoryMailbox) :
    (heldKey e).Ensures s fun r t =>
      t = s ∧ ∀ key, r = .ok key → s.claimed.contains key = true := by
  unfold Method.Ensures heldKey
  cases claimKey e.messageId e.claimId with
  | error error =>
    refine ⟨rfl, fun key h => ?_⟩
    cases h
  | ok key =>
    rw [Method.run_lift_ok_bind, Method.run_read_bind]
    split
    · next hlive =>
      refine ⟨rfl, fun key' h => ?_⟩
      cases h
      exact hlive
    · refine ⟨rfl, fun key' h => ?_⟩
      cases h

theorem keepsClaims_updateClaim (e : MailboxEnvelope) :
    KeepsClaims (updateClaim e) := by
  intro s
  have hheld := heldKey_ensures e s
  unfold Method.Ensures at hheld
  unfold updateClaim
  cases hrun : (heldKey e).run s with
  | mk r t =>
    rw [hrun] at hheld
    obtain ⟨rfl, hlive⟩ := hheld
    cases r with
    | error error =>
      rw [Method.run_bind_of_error hrun]
      exact .refl t
    | ok key =>
      rw [Method.run_bind_of_ok hrun]
      exact sameClaims_rewrite (hlive key rfl) e

theorem keepsClaims_readClaim (m : UuidHex) (c : String) :
    KeepsClaims (readClaim m c) := fun s => .refl s

theorem readsClaims_id : ReadsClaims id := fun _ _ hc => ⟨rfl, hc⟩

/-- The keys of the claims, in the order `list_claimed` goes. -/
def sortedKeys (s : InMemoryMailbox) : List (UuidHex × String) :=
  s.claimed.keys.insertionSort fun a b =>
    a.1.text < b.1.text ∨ (a.1.text = b.1.text ∧ a.2 ≤ b.2)

theorem nodup_sortedKeys (s : InMemoryMailbox) : (sortedKeys s).Nodup :=
  (List.perm_insertionSort _ _).nodup_iff.2 s.claimed.nodup_keys

theorem listClaimed_eq (s : InMemoryMailbox) :
    mailbox.listClaimed s
      = (sortedKeys s).filterMap fun k => (s.claimed.get? k).map id := by
  simp only [Option.map_id, id_eq]
  rfl

def lawful : LawfulMailbox UuidHex (UuidHex × String) where
  toTeammateMailbox := mailbox
  inboxKey := id
  key := Prod.mk
  delivers := delivers
  publish_taken _ _ _ _ htaken := ⟨_, _, run_publish_taken htaken⟩
  beats := keepsClaims_heartbeat keepsClaims_readClaim keepsClaims_updateClaim
  listed s hs e he := by
    rw [listClaimed_eq] at he
    exact hs.listed readsClaims_id he
  distinct s hs := by
    rw [listClaimed_eq]
    exact hs.distinct readsClaims_id (nodup_sortedKeys s)

end InMemory

-- ============= on disk

namespace FileBacked

theorem nodup_glob (directory : Dict String MailboxEnvelope)
    (pattern : String) : (glob directory pattern).Nodup :=
  (List.perm_insertionSort _ _).nodup_iff.2
    (directory.nodup_keys.filter _)

theorem claimPath_ensures (m : UuidHex) (claimId : Option String)
    (s : FileBackedMailbox) :
    (claimPath m claimId).Ensures s fun r t =>
      t = s ∧ ∀ path, r = .ok path → s.claimed.contains path = true := by
  unfold Method.Ensures claimPath
  rw [Method.run_read_bind]
  dsimp only
  cases hfound : ((claimId.filter (· ≠ "")).map (claimName m)).filter
      s.claimed.contains with
  | some path =>
    refine ⟨rfl, fun path' h => ?_⟩
    cases h
    exact (Option.filter_eq_some_iff.1 hfound).2
  | none =>
    cases hhead : (glob s.claimed (m.text ++ "--*.json")).head? with
    | none => exact ⟨rfl, fun _ h => nomatch h⟩
    | some path =>
      refine ⟨rfl, fun path' h => ?_⟩
      cases h
      have hmem := mem_glob.1 (List.mem_of_head? hhead)
      exact Dict.contains_iff.2 hmem.1

theorem keepsClaims_claimPath (m : UuidHex) (claimId : Option String) :
    KeepsClaims (claimPath m claimId) := fun s => by
  rw [(claimPath_ensures m claimId s).1]
  exact .refl s

theorem keepsClaims_updateClaim (e : MailboxEnvelope) :
    KeepsClaims (updateClaim e) := by
  intro s
  have hpath := claimPath_ensures e.messageId e.claimId s
  unfold Method.Ensures at hpath
  unfold updateClaim
  cases hrun : (claimPath e.messageId e.claimId).run s with
  | mk r t =>
    rw [hrun] at hpath
    obtain ⟨rfl, hlive⟩ := hpath
    cases r with
    | error error =>
      rw [Method.run_bind_of_error hrun]
      exact .refl t
    | ok path =>
      rw [Method.run_bind_of_ok hrun]
      exact sameClaims_rewrite (hlive path rfl) e

theorem keepsClaims_readClaim (m : UuidHex) (c : String) :
    KeepsClaims (readClaim m c) := by
  refine keepsClaims_bind (keepsClaims_claimPath m (some c)) fun path => ?_
  refine keepsClaims_bind (fun s => .refl s) fun claims => ?_
  exact keepsClaims_bind (fun s => .refl s) fun document s => .refl s

theorem readsClaims_reload : ReadsClaims MailboxEnvelope.reload :=
  fun _ _ hc => ⟨rfl, claimId_reload_uuid hc⟩

def lawful : LawfulMailbox String String where
  toTeammateMailbox := mailbox
  inboxKey := inboxName
  key := claimName
  delivers := delivers
  publish_taken _ _ _ _ htaken :=
    ⟨_, _, run_publish_taken (Dict.mem_keys_insert.2 (Or.inr htaken))⟩
  beats := keepsClaims_heartbeat keepsClaims_readClaim keepsClaims_updateClaim
  listed _ hs _ he := hs.listed readsClaims_reload he
  distinct s hs := hs.distinct readsClaims_reload (nodup_glob s.claimed _)

end FileBacked

end WeaveRuntime.Teammates
