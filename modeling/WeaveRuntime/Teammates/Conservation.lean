/-
Mailbox conservation: no message is lost or doubled, its attempts are all
archived, and it is claimed no more often than its ceiling allows.

A mailbox is seen through the tags of its documents (`view`), the buckets
of `Lib/Delivery.lean`; a history goes along with it. `Sound` says that
the keys of the buckets are made from the documents and that the ledger
of the delivery holds, and `sound_run` that a call keeps both, by the
rules of the delivery. What the two mailboxes do differently with a
claim that is gone is left to a hypothesis there.

# Where the disk mailbox fails

A stale `update_claim` of a message that is claimed again writes the old
attempt over the new record (`FileBacked.Overwrites`); the archive then
counts more attempts than the record does.
-/
import WeaveRuntime.Lib.Delivery
import WeaveRuntime.Teammates.Fencing

namespace WeaveRuntime.Teammates

open Lib
open Lib.Delivery
open Python
open Method (run_bind_of_ok run_read_bind run_write_bind state_bind_pure)

-- ================ view

/-- What the delivery knows of an envelope. -/
def tag (e : MailboxEnvelope) : Tag UuidHex String :=
  ⟨e.messageId, e.attempt, e.claimId⟩

section View

variable {ι κ : Type}

def tags (d : Dict κ MailboxEnvelope) : Multiset (Tag UuidHex String) :=
  (d.values.map tag : List (Tag UuidHex String))

/-- The buckets of a mailbox, by what their documents say. -/
def MailboxState.view (s : MailboxState ι κ) : Buckets UuidHex String :=
  ⟨tags s.inbox, tags s.claimed, tags s.done, tags s.failed, tags s.retry⟩

variable {d : Dict κ MailboxEnvelope}

theorem mem_tags_iff [DecidableEq κ] {t : Tag UuidHex String} :
    t ∈ tags d ↔ ∃ k e, d.get? k = some e ∧ tag e = t := by
  show t ∈ d.values.map tag ↔ _
  rw [List.mem_map]
  refine ⟨fun h => ?_, fun h => ?_⟩
  · obtain ⟨e, he, ht⟩ := h
    obtain ⟨k, hk⟩ := Dict.mem_values_iff.1 he
    exact ⟨k, e, hk, ht⟩
  · obtain ⟨k, e, hk, ht⟩ := h
    exact ⟨e, Dict.mem_values_iff.2 ⟨k, hk⟩, ht⟩

theorem tags_insert [DecidableEq κ] (d : Dict κ MailboxEnvelope) (k : κ)
    (e : MailboxEnvelope) :
    tags (d.insert k e) = tag e ::ₘ tags (d.erase k) := by
  refine Multiset.coe_eq_coe.2 ?_
  exact ((Dict.entries_insert_perm d k e).map Prod.snd).map tag

theorem tags_of_get? [DecidableEq κ] {k : κ} {e : MailboxEnvelope}
    (h : d.get? k = some e) : tags d = tag e ::ₘ tags (d.erase k) := by
  refine Multiset.coe_eq_coe.2 ?_
  exact ((Dict.entries_perm_of_get? h).map Prod.snd).map tag

theorem tags_insert_of_not_mem [DecidableEq κ] {k : κ} (h : k ∉ d.keys)
    (e : MailboxEnvelope) : tags (d.insert k e) = tag e ::ₘ tags d := by
  rw [tags_insert, Dict.erase_of_not_mem h]

end View

-- ============= history

/-- What is asked of a call: messages are published once, claim ids are
new, an updated envelope was handed out by a claim, and a settled one is
that of a live claim. Heartbeats may carry anything. -/
def Legit (b : Buckets UuidHex String) (h : History UuidHex String) :
    MailboxCall → Prop
  | .publish e _ => e.messageId ∉ h.published ∧ e.attempt = 1
  | .claimNext _ _ _ claimId => ∀ j ∈ h.issued, j.claim ≠ some claimId.text
  | .updateClaim e => tag e ∈ h.issued
  | .heartbeat _ _ _ => True
  | .completeDone e _ _ => tag e ∈ b.claimed
  | .failOrRetry e _ _ _ _ _ => tag e ∈ b.claimed

instance (b : Buckets UuidHex String) (h : History UuidHex String) :
    (call : MailboxCall) → Decidable (Legit b h call)
  | .publish e _ =>
    inferInstanceAs (Decidable (e.messageId ∉ h.published ∧ e.attempt = 1))
  | .claimNext _ _ _ claimId =>
    inferInstanceAs
      (Decidable (∀ j ∈ h.issued, j.claim ≠ some claimId.text))
  | .updateClaim e => inferInstanceAs (Decidable (tag e ∈ h.issued))
  | .heartbeat _ _ _ => inferInstanceAs (Decidable True)
  | .completeDone e _ _ => inferInstanceAs (Decidable (tag e ∈ b.claimed))
  | .failOrRetry e _ _ _ _ _ => inferInstanceAs (Decidable (tag e ∈ b.claimed))

/-- What a call adds to the history. -/
def recorded (config : MailboxConfig) (h : History UuidHex String) :
    MailboxCall → Except MailboxError MailboxReply → History UuidHex String
  | .publish e _, .ok _ => { h with published := e.messageId :: h.published }
  | .claimNext _ _ _ _, .ok (.envelope e) =>
    { h with issued := tag e :: h.issued }
  | .failOrRetry e _ r _ _ _, _ =>
    { h with ceilings := (e.messageId, config.ceiling r e) :: h.ceilings }
  | _, _ => h

def deliverySystem {ι κ : Type} (config : MailboxConfig)
    (M : TeammateMailboxStore (MailboxState ι κ)) :
    System (MailboxState ι κ × History UuidHex String) MailboxCall where
  step state call :=
    if Legit state.1.view state.2 call then
      some (((M.run config call).run state.1).2,
        recorded config state.2 call ((M.run config call).run state.1).1)
    else none

-- =============== sound

theorem Labelled.keys {ι κ : Type} [DecidableEq κ]
    {key : UuidHex → String → κ} {s : MailboxState ι κ}
    (hl : Labelled key s) :
    ∀ k e, s.claimed.get? k = some e → ∃ c, k = key e.messageId c := by
  intro k e he
  obtain ⟨c, -, hk⟩ := hl k e he
  exact ⟨c.text, hk⟩

section Sound

variable {ι κ : Type} [DecidableEq ι] [DecidableEq κ]

/-- The keys are made from the documents, and the ledger holds. -/
structure Sound (inboxKey : UuidHex → ι) (key : UuidHex → String → κ)
    (s : MailboxState ι κ) (h : History UuidHex String) : Prop where
  ledger : Ledger s.view h
  waiting : ∀ k e, s.inbox.get? k = some e → k = inboxKey e.messageId
  labelled : Labelled key s
  done : ∀ k e, s.done.get? k = some e → ∃ c, k = key e.messageId c
  failed : ∀ k e, s.failed.get? k = some e → ∃ c, k = key e.messageId c
  filed : ∀ k e, s.retry.get? k = some e →
    ∃ c, e.claimId = some c ∧ k = key e.messageId c

/-- A document read back from the one kept. -/
def ReadsAs (kept read : MailboxEnvelope) : Prop :=
  read.messageId = kept.messageId
    ∧ (kept.attempt ≠ 0 → read.attempt = kept.attempt)

/-- What the conservation of a mailbox rests on. -/
structure Delivers (inboxKey : UuidHex → ι) (key : UuidHex → String → κ)
    (M : TeammateMailboxStore (MailboxState ι κ)) : Prop where
  inboxKey_inj : ∀ m m', inboxKey m = inboxKey m' → m = m'
  key_inj : ∀ m c m' c', key m c = key m' c' → m = m' ∧ c = c'
  publish : ∀ (s : MailboxState ι κ) (e : MailboxEnvelope) tempId,
    (∀ k f, s.inbox.get? k = some f → k = inboxKey f.messageId) →
    inboxKey e.messageId ∉ s.inbox.keys →
    (M.publish e tempId).run s = (.ok e,
      { s with inbox := s.inbox.insert (inboxKey e.messageId) e })
  claimNext : ∀ (s : MailboxState ι κ) config claimer lease now claimId,
    (M.claimNext config claimer lease now claimId).run s = (.ok none, s)
    ∨ ∃ k kept read lease', s.inbox.get? k = some kept ∧ ReadsAs kept read
      ∧ (M.claimNext config claimer lease now claimId).run s
        = (.ok (some (read.withClaim claimId.text claimer lease' now)),
          { s with
            inbox := s.inbox.erase k
            claimed := s.claimed.insert (key read.messageId claimId.text)
              (read.withClaim claimId.text claimer lease' now) })
  rules : ∀ (s : MailboxState ι κ) m c, Labelled key s →
    s.claimed.contains (key m c) = true → ClaimRules key M s m c
  read : ∀ (s : MailboxState ι κ) m c kept, Labelled key s →
    s.claimed.get? (key m c) = some kept →
    ∃ e, (M.readClaim m c).run s = (.ok e, s) ∧ ReadsAs kept e
      ∧ e.claimId = kept.claimId

variable {inboxKey : UuidHex → ι} {key : UuidHex → String → κ}
  {M : TeammateMailboxStore (MailboxState ι κ)} {config : MailboxConfig}
  {s : MailboxState ι κ} {h : History UuidHex String}

theorem Sound.init : Sound inboxKey key (.init : MailboxState ι κ) .init := by
  have hempty : ∀ {α : Type} [DecidableEq α] (k : α) e,
      (Dict.empty : Dict α MailboxEnvelope).get? k = some e → False := by
    intro α _ k e he
    cases he
  exact ⟨Ledger.init, fun k e he => (hempty k e he).elim,
    labelled_init key, fun k e he => (hempty k e he).elim,
    fun k e he => (hempty k e he).elim, fun k e he => (hempty k e he).elim⟩

variable {d : Dict κ MailboxEnvelope} {e kept : MailboxEnvelope} {m : UuidHex}

theorem Sound.inbox_free (hs : Sound inboxKey key s h)
    (hM : Delivers inboxKey key M) (hnone : copies m s.view.inbox = 0) :
    inboxKey m ∉ s.inbox.keys := by
  intro hmem
  obtain ⟨e, he⟩ := Dict.mem_keys_iff.1 hmem
  have hid := hM.inboxKey_inj _ _ (hs.waiting _ e he)
  have hpos : 0 < copies m s.view.inbox :=
    copies_pos.2 ⟨tag e, mem_tags_iff.2 ⟨_, e, he, rfl⟩, hid.symm⟩
  omega

theorem bucket_free (hM : Delivers inboxKey key M) {c : String}
    (hkeys : ∀ k e, d.get? k = some e → ∃ c, k = key e.messageId c)
    (hnone : copies m (tags d) = 0) : key m c ∉ d.keys := by
  intro hmem
  obtain ⟨e, he⟩ := Dict.mem_keys_iff.1 hmem
  obtain ⟨c', hk⟩ := hkeys _ e he
  have hid := (hM.key_inj _ _ _ _ hk).1
  have hpos : 0 < copies m (tags d) :=
    copies_pos.2 ⟨tag e, mem_tags_iff.2 ⟨_, e, he, rfl⟩, hid.symm⟩
  omega

section

variable (hs : Sound inboxKey key s h)
include hs

theorem Sound.attempt_pos {t : Tag UuidHex String} (ht : s.view.Current t) :
    t.attempt ≠ 0 := by
  have harchive := hs.ledger.archive t ht
  omega

-- =============== calls

theorem Sound.publish (hM : Delivers inboxKey key M)
    (hid : e.messageId ∉ h.published) (hattempt : e.attempt = 1)
    (tempId : UuidHex) :
    ∃ s', (M.publish e tempId).run s = (.ok e, s')
      ∧ Sound inboxKey key s'
        { h with published := e.messageId :: h.published } := by
  have hfree := hs.inbox_free hM (hs.ledger.nowhere hid).1
  refine ⟨_, hM.publish s e tempId hs.waiting hfree, ?_⟩
  refine ⟨?_, fun k f hf => ?_, hs.labelled, hs.done, hs.failed, hs.filed⟩
  · show Ledger ⟨tags (s.inbox.insert _ e), _, _, _, _⟩ _
    rw [tags_insert_of_not_mem hfree]
    exact hs.ledger.publish (t := tag e) hid hattempt
  · dsimp only at hf
    rw [Dict.get?_insert] at hf
    split at hf
    · next hk =>
      cases hf
      exact hk
    · exact hs.waiting k f hf

theorem Sound.claim (hM : Delivers inboxKey key M) {k : ι}
    {read : MailboxEnvelope} {claimer : String} {lease : Int} {now : Datetime}
    {claimId : UuidHex} (hk : s.inbox.get? k = some kept)
    (hread : ReadsAs kept read)
    (hfresh : ∀ j ∈ h.issued, j.claim ≠ some claimId.text) :
    Sound inboxKey key
      { s with
        inbox := s.inbox.erase k
        claimed := s.claimed.insert (key read.messageId claimId.text)
          (read.withClaim claimId.text claimer lease now) }
      { h with
        issued := tag (read.withClaim claimId.text claimer lease now)
          :: h.issued } := by
  obtain ⟨hid, hattempt⟩ := hread
  have hinbox : s.view.inbox = tag kept ::ₘ tags (s.inbox.erase k) :=
    tags_of_get? hk
  have hpos : kept.attempt ≠ 0 := hs.attempt_pos
    (t := tag kept) (Or.inl (hinbox ▸ Multiset.mem_cons_self ..))
  obtain ⟨-, -, hclaimed, -, -⟩ := hs.ledger.only_waiting hinbox
  have hfree : key read.messageId claimId.text ∉ s.claimed.keys := by
    refine bucket_free hM hs.labelled.keys ?_
    rw [hid]
    exact hclaimed
  have htag : tag (read.withClaim claimId.text claimer lease now)
      = { tag kept with claim := some claimId.text } := by
    show Tag.mk read.messageId read.attempt _ = Tag.mk _ _ _
    rw [hid, hattempt hpos]
    rfl
  refine ⟨?_, fun k' f hf => ?_, fun k' f hf => ?_, hs.done, hs.failed,
    hs.filed⟩
  · show Ledger ⟨tags (s.inbox.erase k), tags (s.claimed.insert _ _), _, _, _⟩
      _
    rw [tags_insert_of_not_mem hfree, htag]
    exact hs.ledger.claim hinbox hfresh
  · dsimp only at hf
    rw [Dict.get?_erase] at hf
    split at hf
    · cases hf
    · exact hs.waiting k' f hf
  · dsimp only at hf
    rw [Dict.get?_insert] at hf
    split at hf
    · next hk' =>
      cases hf
      exact ⟨claimId, rfl, hk'⟩
    · exact hs.labelled k' f hf

theorem Sound.rewrite {k : κ} (hk : s.claimed.get? k = some kept)
    (htag : tag e = tag kept) :
    Sound inboxKey key { s with claimed := s.claimed.insert k e } h := by
  refine ⟨?_, hs.waiting, fun k' f hf => ?_, hs.done, hs.failed, hs.filed⟩
  · have hview : tags (s.claimed.insert k e) = tags s.claimed := by
      rw [tags_insert, tags_of_get? hk, htag]
    show Ledger ⟨_, tags (s.claimed.insert k e), _, _, _⟩ _
    rw [hview]
    exact hs.ledger
  · dsimp only at hf
    rw [Dict.get?_insert] at hf
    split at hf
    · next hk' =>
      cases hf
      obtain ⟨c, hc, hlabel⟩ := hs.labelled k kept hk
      refine ⟨c, ?_, ?_⟩
      · exact (congrArg Tag.claim htag).trans hc
      · rw [hk', hlabel]
        exact congrArg (key · c.text) (congrArg Tag.id htag).symm
    · exact hs.labelled k' f hf

theorem Sound.settle_labelled (k : κ) {k' : κ} {f : MailboxEnvelope}
    (hf : (s.claimed.erase k).get? k' = some f) :
    ∃ c : UuidHex, f.claimId = some c.text ∧ k' = key f.messageId c.text := by
  rw [Dict.get?_erase] at hf
  split at hf
  · cases hf
  · exact hs.labelled k' f hf

end

theorem insert_keyed {c : String} (hid : e.messageId = m)
    (hkeys : ∀ k e, d.get? k = some e → ∃ c, k = key e.messageId c) :
    ∀ k f, (d.insert (key m c) e).get? k = some f →
      ∃ c, k = key f.messageId c := by
  intro k f hf
  rw [Dict.get?_insert] at hf
  split at hf
  · next hk =>
    cases hf
    exact ⟨c, hid ▸ hk⟩
  · exact hkeys k f hf

theorem Sound.live (hs : Sound inboxKey key s h)
    (he : tag e ∈ s.view.claimed) :
    ∃ kept, ∃ c : UuidHex, e.claimId = some c.text
      ∧ s.claimed.get? (key e.messageId c.text) = some kept
      ∧ tag kept = tag e := by
  obtain ⟨k, kept, hk, htag⟩ := mem_tags_iff.1 he
  obtain ⟨c, hc, hlabel⟩ := hs.labelled k kept hk
  have hid : kept.messageId = e.messageId := congrArg Tag.id htag
  have hclaim : kept.claimId = e.claimId := congrArg Tag.claim htag
  refine ⟨kept, c, hclaim ▸ hc, ?_, htag⟩
  rw [← hid, ← hlabel]
  exact hk

theorem contains_of_get? {k : κ} (hk : d.get? k = some e) :
    d.contains k = true :=
  Dict.contains_iff.2 (Dict.mem_keys_iff.2 ⟨e, hk⟩)

section

variable (hs : Sound inboxKey key s h)
include hs

theorem Sound.settle (hM : Delivers inboxKey key M) {c : UuidHex}
    (hk : s.claimed.get? (key e.messageId c.text) = some kept)
    (htag : tag kept = tag e) (bucket : MailboxTerminalState)
    (hbucket : bucket ≠ .retry) {ceilings : List (UuidHex × Int)}
    (hmore : ∀ entry ∈ h.ceilings, entry ∈ ceilings) :
    Sound inboxKey key (s.settle bucket (key e.messageId c.text) e)
      { h with ceilings := ceilings } := by
  have hclaimed : s.view.claimed
      = tag e ::ₘ tags (s.claimed.erase (key e.messageId c.text)) := by
    rw [← htag]
    exact tags_of_get? hk
  obtain ⟨-, -, -, hdone, hfailed⟩ := hs.ledger.only_claimed hclaimed
  cases bucket with
  | retry => exact absurd rfl hbucket
  | done =>
    have hfree : key e.messageId c.text ∉ s.done.keys :=
      bucket_free hM hs.done hdone
    refine ⟨?_, hs.waiting, fun k f hf => hs.settle_labelled _ hf,
      insert_keyed rfl hs.done, hs.failed, hs.filed⟩
    refine hs.ledger.settle hclaimed (Or.inl ⟨?_, rfl⟩) hmore
    exact tags_insert_of_not_mem hfree e
  | failed =>
    have hfree : key e.messageId c.text ∉ s.failed.keys :=
      bucket_free hM hs.failed hfailed
    refine ⟨?_, hs.waiting, fun k f hf => hs.settle_labelled _ hf,
      hs.done, insert_keyed rfl hs.failed, hs.filed⟩
    refine hs.ledger.settle hclaimed (Or.inr ⟨rfl, ?_⟩) hmore
    exact tags_insert_of_not_mem hfree e

/-- The place of a live claim in the archive is free: what is archived is
of an earlier attempt. -/
theorem Sound.archive_free (hM : Delivers inboxKey key M) {c : UuidHex}
    (hk : s.claimed.get? (key m c.text) = some kept) :
    key m c.text ∉ s.retry.keys := by
  intro hmem
  obtain ⟨f, hf⟩ := Dict.mem_keys_iff.1 hmem
  obtain ⟨c', hc', hlabel'⟩ := hs.filed _ f hf
  obtain ⟨d, hd, hlabel⟩ := hs.labelled _ kept hk
  have hcc' := (hM.key_inj _ _ _ _ hlabel').2
  have hcd := (hM.key_inj _ _ _ _ hlabel).2
  have hfiled : tag f ∈ s.view.retry := mem_tags_iff.2 ⟨_, f, hf, rfl⟩
  have hlive : tag kept ∈ s.view.claimed :=
    mem_tags_iff.2 ⟨_, kept, hk, rfl⟩
  obtain ⟨hissued, hle⟩ := hs.ledger.filed _ hfiled
  have hclaim : (tag f).claim = (tag kept).claim := by
    show f.claimId = kept.claimId
    rw [hc', hd, ← hcc', ← hcd]
  have hsame := hs.ledger.distinct _ hissued _ (hs.ledger.live _ hlive) hclaim
  have harchive := hs.ledger.archive _ (Or.inr (Or.inl hlive))
  rw [hsame] at hle
  omega

theorem Sound.requeue (hM : Delivers inboxKey key M)
    {requeued : MailboxEnvelope} {c : UuidHex}
    (hk : s.claimed.get? (key e.messageId c.text) = some kept)
    (hc : e.claimId = some c.text) (htag : tag kept = tag e)
    (hnext : tag requeued = ⟨e.messageId, e.attempt + 1, none⟩)
    {ceiling : Int} (hbelow : e.attempt < ceiling) (tempId : UuidHex) :
    Sound inboxKey key
      ((M.publish requeued tempId).run
        (s.settle .retry (key e.messageId c.text) e)).2
      { h with ceilings := (e.messageId, ceiling) :: h.ceilings } := by
  have hclaimed : s.view.claimed
      = tag e ::ₘ tags (s.claimed.erase (key e.messageId c.text)) := by
    rw [← htag]
    exact tags_of_get? hk
  have hid : requeued.messageId = e.messageId := congrArg Tag.id hnext
  obtain ⟨-, hinbox, -, -, -⟩ := hs.ledger.only_claimed hclaimed
  have hfree : inboxKey requeued.messageId ∉ s.inbox.keys := by
    rw [hid]
    exact hs.inbox_free hM hinbox
  rw [hM.publish (s.settle .retry (key e.messageId c.text) e) requeued tempId
    hs.waiting hfree]
  refine ⟨?_, fun k f hf => ?_, fun k f hf => hs.settle_labelled _ hf,
    hs.done, hs.failed, fun k f hf => ?_⟩
  · have hretry : tags (s.retry.insert (key e.messageId c.text) e)
        = tag e ::ₘ tags s.retry :=
      tags_insert_of_not_mem (hs.archive_free hM hk) e
    show Ledger ⟨tags (s.inbox.insert _ requeued), tags (s.claimed.erase _), _,
      _, tags (s.retry.insert (key e.messageId c.text) e)⟩ _
    rw [tags_insert_of_not_mem hfree, hretry, hnext]
    exact hs.ledger.retry (t := tag e) hclaimed hbelow
  · replace hf : (s.inbox.insert (inboxKey requeued.messageId)
      requeued).get? k = some f := hf
    rw [Dict.get?_insert] at hf
    split at hf
    · next hk' =>
      cases hf
      exact hk'
    · exact hs.waiting k f hf
  · replace hf : (s.retry.insert (key e.messageId c.text) e).get? k
      = some f := hf
    rw [Dict.get?_insert] at hf
    split at hf
    · next hk' =>
      cases hf
      exact ⟨c.text, hc, hk'⟩
    · exact hs.filed k f hf

-- ================= run

theorem Sound.update (hM : Delivers inboxKey key M) {c : String}
    (hc : e.claimId = some c)
    (hlive : s.claimed.contains (key e.messageId c) = true)
    (hissued : tag e ∈ h.issued) :
    Sound inboxKey key ((M.updateClaim e).run s).2 h := by
  obtain ⟨kept, hk, hid, hkc, -⟩ := hs.labelled.held hM.key_inj hlive
  rw [(hM.rules s e.messageId c hs.labelled hlive).update e rfl hc]
  refine hs.rewrite hk ?_
  have hclaimed : tag kept ∈ s.view.claimed := mem_tags_iff.2 ⟨_, kept, hk, rfl⟩
  refine hs.ledger.distinct _ hissued _ (hs.ledger.live _ hclaimed) ?_
  show e.claimId = kept.claimId
  rw [hc, hkc]

theorem Sound.heartbeat (hM : Delivers inboxKey key M) {c : String}
    {now : Datetime} (hlive : s.claimed.contains (key m c) = true) :
    Sound inboxKey key ((M.heartbeat m c now).run s).2 h := by
  obtain ⟨kept, hk, hid, hkc, -⟩ := hs.labelled.held hM.key_inj hlive
  obtain ⟨e, hread, ⟨heid, hattempt⟩, hec⟩ := hM.read s m c kept hs.labelled hk
  have hclaimed : tag kept ∈ s.view.claimed := mem_tags_iff.2 ⟨_, kept, hk, rfl⟩
  have hpos : kept.attempt ≠ 0 :=
    hs.attempt_pos (t := tag kept) (Or.inr (Or.inl hclaimed))
  have hbeat := (hM.rules s m c hs.labelled hlive).update
    (e.withHeartbeat now) (heid.trans hid) (hec.trans hkc)
  unfold TeammateMailboxStore.heartbeat
  rw [run_bind_of_ok hread, hbeat]
  refine hs.rewrite hk ?_
  show Tag.mk e.messageId e.attempt e.claimId = Tag.mk _ _ _
  rw [heid, hattempt hpos, hec]

theorem Sound.failOrRetry (hM : Delivers inboxKey key M)
    (he : tag e ∈ s.view.claimed) (reason : String) (r : Option Int)
    (now backoffEnd : Datetime) (tempId : UuidHex) :
    Sound inboxKey key ((M.failOrRetry config e reason r now backoffEnd
        tempId).run s).2
      { h with
        ceilings := (e.messageId, config.ceiling r e) :: h.ceilings } := by
  obtain ⟨kept, c, hc, hk, htag⟩ := hs.live he
  have hrules := hM.rules s e.messageId c.text hs.labelled
    (contains_of_get? hk)
  unfold TeammateMailboxStore.failOrRetry
  split
  · rw [state_bind_pure, hrules.move
      (e.withTerminal .failed (some reason) now) .failed rfl hc]
    exact hs.settle hM (e := e.withTerminal .failed (some reason) now) hk htag
      .failed (fun heq => nomatch heq) fun entry hentry =>
        List.mem_cons_of_mem _ hentry
  · next hbelow =>
    rw [run_bind_of_ok (hrules.move
      (e.withTerminal .retry (some reason) now) .retry rfl hc)]
    dsimp only
    rw [state_bind_pure]
    exact hs.requeue hM (e := e.withTerminal .retry (some reason) now) hk hc
      htag rfl (lt_of_not_ge hbelow) tempId

end

/-- What the delivery needs of a call whose claim is gone. -/
def LeavesGone (inboxKey : UuidHex → ι) (key : UuidHex → String → κ)
    (config : MailboxConfig) (M : TeammateMailboxStore (MailboxState ι κ))
    (s : MailboxState ι κ) (h : History UuidHex String)
    (call : MailboxCall) : Prop :=
  ∀ m claimId, call.claim = some (m, claimId) → Gone key s m claimId →
    Sound inboxKey key ((M.run config call).run s).2 h

/-- A call that is asked for no more than `Legit` keeps the mailbox sound,
where it leaves it sound when its claim is gone. -/
theorem sound_run (hs : Sound inboxKey key s h) (hM : Delivers inboxKey key M)
    {call : MailboxCall} (hlegit : Legit s.view h call)
    (hgone : LeavesGone inboxKey key config M s h call) :
    Sound inboxKey key ((M.run config call).run s).2
      (recorded config h call ((M.run config call).run s).1) := by
  cases call with
  | publish e tempId =>
    obtain ⟨hid, hattempt⟩ := hlegit
    obtain ⟨s', hrun, hnext⟩ := hs.publish hM (e := e) hid hattempt tempId
    have hcall : (M.run config (.publish e tempId)).run s
        = (.ok (.envelope e), s') := run_bind_of_ok hrun
    rw [hcall]
    exact hnext
  | claimNext claimer lease now claimId =>
    rcases hM.claimNext s config claimer lease now claimId with hrun
      | ⟨k, kept, read, lease', hk, hread, hrun⟩
    · have hcall : (M.run config (.claimNext claimer lease now claimId)).run s
          = (.ok .nothing, s) := run_bind_of_ok hrun
      rw [hcall]
      exact hs
    · have hcall : (M.run config (.claimNext claimer lease now claimId)).run s
          = (.ok (.envelope (read.withClaim claimId.text claimer lease' now)),
            _) := run_bind_of_ok hrun
      rw [hcall]
      exact hs.claim hM hk hread hlegit
  | updateClaim e =>
    by_cases hlive : ∃ c, e.claimId = some c
        ∧ s.claimed.contains (key e.messageId c) = true
    · obtain ⟨c, hc, hlive⟩ := hlive
      show Sound _ _ ((M.updateClaim e >>= _).run s).2 h
      rw [state_bind_pure]
      exact hs.update hM hc hlive hlegit
    · refine hgone e.messageId e.claimId rfl fun c hc => ?_
      rw [← Bool.not_eq_true]
      exact fun hthere => hlive ⟨c, hc, hthere⟩
  | heartbeat m c now =>
    cases hlive : s.claimed.contains (key m c) with
    | true =>
      show Sound _ _ ((M.heartbeat m c now >>= _).run s).2 h
      rw [state_bind_pure]
      exact hs.heartbeat hM hlive
    | false =>
      refine hgone m (some c) rfl fun c' hc' => ?_
      cases hc'
      exact hlive
  | completeDone e reason now =>
    obtain ⟨kept, c, hc, hk, htag⟩ := hs.live hlegit
    have hrules := hM.rules s e.messageId c.text hs.labelled
      (contains_of_get? hk)
    show Sound _ _ ((M.completeDone e reason now >>= _).run s).2 h
    rw [state_bind_pure]
    unfold TeammateMailboxStore.completeDone
    rw [hrules.move (e.withTerminal .done reason now) .done rfl hc]
    exact hs.settle hM (e := e.withTerminal .done reason now) hk htag
      .done (fun heq => nomatch heq) fun entry hentry => hentry
  | failOrRetry e reason r now backoffEnd tempId =>
    show Sound _ _ ((M.failOrRetry config e reason r now backoffEnd
      tempId >>= _).run s).2 _
    rw [state_bind_pure]
    exact hs.failOrRetry hM hlegit reason r now backoffEnd tempId

end Sound

theorem get?_of_find? {ι : Type} [DecidableEq ι] {d : Dict ι MailboxEnvelope}
    {ids : List ι} {f : MailboxEnvelope → MailboxEnvelope}
    {p : ι × MailboxEnvelope → Bool} {entry : ι × MailboxEnvelope}
    (h : (ids.filterMap fun i => (d.get? i).map fun e => (i, f e)).find? p
      = some entry) : ∃ e, d.get? entry.1 = some e ∧ entry.2 = f e := by
  obtain ⟨i, -, hi⟩ := List.mem_filterMap.1 (List.mem_of_find?_eq_some h)
  obtain ⟨e, he, hentry⟩ := Option.map_eq_some_iff.1 hi
  rw [← hentry]
  exact ⟨e, he, rfl⟩

-- =========== in memory

namespace InMemory

theorem delivers : Delivers id Prod.mk store where
  inboxKey_inj _ _ h := h
  key_inj := key_injective
  publish _ _ _ _ hfree := run_publish hfree
  claimNext s config claimer lease now claimId := by
    show (claimNext config claimer lease now claimId).run s = _ ∨ _
    cases hnext : nextReady s.inbox now with
    | none =>
      left
      unfold claimNext
      rw [run_read_bind, hnext]
      rfl
    | some entry =>
      right
      obtain ⟨e, he, hentry⟩ := get?_of_find? (f := id) hnext
      obtain ⟨messageId, read⟩ := entry
      refine ⟨messageId, e, read, config.lease lease read, he, ?_, ?_⟩
      · rw [show read = e from hentry]
        exact ⟨rfl, fun _ => rfl⟩
      · show (claimNext config claimer lease now claimId).run s = _
        unfold claimNext
        rw [run_read_bind, hnext]
        rfl
  rules _ _ _ hlabelled hlive := claimRules hlabelled hlive
  read s m c kept _ hk := by
    refine ⟨kept, ?_, ⟨rfl, fun _ => rfl⟩, rfl⟩
    show (readClaim m c).run s = _
    unfold readClaim
    rw [run_read_bind, hk]
    rfl

end InMemory

-- ============= on disk

namespace FileBacked

theorem inboxName_injective (m m' : UuidHex)
    (h : inboxName m = inboxName m') : m = m' := by
  have hlist := congrArg String.toList h
  unfold inboxName at hlist
  rw [String.toList_append, String.toList_append] at hlist
  have hm := List.append_cancel_right hlist
  cases m
  cases m'
  cases String.toList_injective hm
  rfl

theorem tempName_ne_inboxName (m tempId m' : UuidHex) :
    tempName m tempId ≠ inboxName m' := by
  intro h
  have hlist := congrArg String.toList h
  unfold tempName inboxName at hlist
  simp only [String.toList_append] at hlist
  have hdigits := m'.digits
  cases hcs : m'.text.toList with
  | nil =>
    have hlen := uuid_length m'
    rw [hcs] at hlen
    cases hlen
  | cons d ds =>
    rw [hcs] at hlist hdigits
    obtain ⟨hd, -⟩ := List.cons_eq_cons.1 hlist
    have hhex := List.all_eq_true.1 hdigits.2 d (List.mem_cons_self ..)
    rw [← hd] at hhex
    revert hhex
    decide

theorem readsAs_reload (e : MailboxEnvelope) : ReadsAs e e.reload :=
  ⟨rfl, MailboxEnvelope.attempt_reload⟩

theorem delivers : Delivers inboxName claimName store where
  inboxKey_inj := inboxName_injective
  key_inj := claimName_injective
  publish s e tempId hwaiting hfree := by
    have htemp : tempName e.messageId tempId ∉ s.inbox.keys := by
      intro hmem
      obtain ⟨f, hf⟩ := Dict.mem_keys_iff.1 hmem
      exact tempName_ne_inboxName _ _ _ (hwaiting _ f hf)
    refine run_publish htemp fun hmem => ?_
    rcases Dict.mem_keys_insert.1 hmem with heq | hmem
    · exact tempName_ne_inboxName _ _ _ heq.symm
    · exact hfree hmem
  claimNext s config claimer lease now claimId := by
    show (claimNext config claimer lease now claimId).run s = _ ∨ _
    cases hnext : nextReady s.inbox now with
    | none =>
      left
      unfold claimNext
      rw [run_read_bind, hnext]
      rfl
    | some entry =>
      right
      obtain ⟨e, he, hentry⟩ := get?_of_find? hnext
      obtain ⟨source, read⟩ := entry
      refine ⟨source, e, read, config.lease lease read, he, ?_, ?_⟩
      · rw [show read = e.reload from hentry]
        exact readsAs_reload e
      · show (claimNext config claimer lease now claimId).run s = _
        unfold claimNext
        rw [run_read_bind, hnext]
        dsimp only
        rw [run_write_bind, run_write_bind, Dict.insert_insert]
        rfl
  rules _ _ _ hlabelled hlive := claimRules hlabelled hlive
  read s m c kept hlabelled hk := by
    have hlive := contains_of_get? hk
    obtain ⟨e, he, hid, hc, d, hd⟩ := hlabelled.held claimName_injective hlive
    rw [hk] at he
    cases he
    have hpath := run_claimPath (hd ▸ uuid_ne_empty d) hlive
    refine ⟨kept.reload, ?_, readsAs_reload kept, ?_⟩
    · show (readClaim m c).run s = _
      unfold readClaim
      rw [run_bind_of_ok hpath, run_read_bind, hk]
      rfl
    · rw [hc, hd]
      exact claimId_reload_uuid (hd ▸ hc)

variable {h : History UuidHex String} {s : FileBackedMailbox}

/-- A heartbeat of a claim that is gone beats for another one of the
message. -/
theorem sound_stale_heartbeat (hs : Sound inboxName claimName s h)
    {m : UuidHex} {c : String} {now : Datetime}
    (hgone : Gone claimName s m (some c)) (hclaimed : Claimed s m) :
    Sound inboxName claimName ((store.heartbeat m c now).run s).2 h := by
  obtain ⟨name, kept, hpath, hk, hid⟩ :=
    run_claimPath_other hs.labelled hgone hclaimed
  obtain ⟨d, hd, hname⟩ := hs.labelled name kept hk
  have hread : (store.readClaim m c).run s = (.ok kept.reload, s) := by
    show (readClaim m c).run s = _
    unfold readClaim
    rw [run_bind_of_ok hpath, run_read_bind, hk]
    rfl
  have hlive : s.claimed.contains (claimName m d.text) = true := by
    rw [← hid, ← hname]
    exact contains_of_get? hk
  have hcurrent : tag kept ∈ s.view.claimed :=
    mem_tags_iff.2 ⟨_, kept, hk, rfl⟩
  have hpos : kept.attempt ≠ 0 :=
    hs.attempt_pos (t := tag kept) (Or.inr (Or.inl hcurrent))
  unfold TeammateMailboxStore.heartbeat
  rw [run_bind_of_ok hread, (claimRules hs.labelled hlive).update
    (kept.reload.withHeartbeat now) hid (claimId_reload_uuid hd),
    ← hid, ← hname]
  refine hs.rewrite hk ?_
  show Tag.mk kept.messageId kept.reload.attempt _ = Tag.mk _ _ _
  rw [MailboxEnvelope.attempt_reload hpos]
  exact congrArg (Tag.mk _ _) ((claimId_reload_uuid hd).trans hd.symm)

/-- An update by an envelope whose claim is gone, of a message that is
claimed under another id. -/
def Overwrites (s : FileBackedMailbox) (call : MailboxCall) : Prop :=
  ∃ e, call = .updateClaim e ∧ Gone claimName s e.messageId e.claimId
    ∧ Claimed s e.messageId

theorem leavesGone (hs : Sound inboxName claimName s h)
    (config : MailboxConfig) {call : MailboxCall}
    (hlegit : Legit s.view h call) (hnot : ¬ Overwrites s call) :
    LeavesGone inboxName claimName config store s h call := by
  intro m claimId hclaim hgone
  by_cases hclaimed : Claimed s m
  · have hsettled : ∀ e : MailboxEnvelope, e.messageId = m →
        e.claimId = claimId → tag e ∈ s.view.claimed → False := by
      intro e hid hc he
      obtain ⟨kept, c, hec, hk, -⟩ := hs.live he
      have hfalse := hgone c.text (hc ▸ hec)
      rw [← hid, contains_of_get? hk] at hfalse
      cases hfalse
    cases call with
    | updateClaim e =>
      cases hclaim
      exact absurd ⟨e, rfl, hgone, hclaimed⟩ hnot
    | heartbeat m' c now =>
      cases hclaim
      show Sound _ _ ((store.heartbeat m c now >>= _).run s).2 h
      rw [state_bind_pure]
      exact sound_stale_heartbeat hs hgone hclaimed
    | completeDone e reason now =>
      cases hclaim
      exact (hsettled e rfl rfl hlegit).elim
    | failOrRetry e reason r now backoffEnd tempId =>
      cases hclaim
      exact (hsettled e rfl rfl hlegit).elim
    | _ => cases hclaim
  · rw [raises_of_rules (goneRules hs.labelled hgone hclaimed) hclaim]
    exact hs

/-- A stale update leaves a record of an attempt that is archived. -/
theorem not_conserved_of_overwrites (hs : Sound inboxName claimName s h)
    (config : MailboxConfig) {call : MailboxCall}
    (hlegit : Legit s.view h call) (hover : Overwrites s call) :
    ¬ Conserved ((store.run config call).run s).2.view
      (recorded config h call ((store.run config call).run s).1) := by
  obtain ⟨e, hcall, hgone, hclaimed⟩ := hover
  obtain ⟨name, kept, hpath, hk, hid⟩ :=
    run_claimPath_other hs.labelled hgone hclaimed
  have hrun : (store.run config call).run s = (.ok (.envelope e),
      { s with claimed := s.claimed.insert name e }) := by
    rw [hcall]
    show (updateClaim e >>= _).run s = _
    have hwrite : (updateClaim e).run s
        = (.ok e, { s with claimed := s.claimed.insert name e }) := by
      unfold updateClaim
      rw [run_bind_of_ok hpath]
      rfl
    rw [run_bind_of_ok hwrite]
    rfl
  rw [hrun]
  intro hconserved
  have hafter := hconserved.archive (tag e) (Or.inr (Or.inl (by
    show tag e ∈ tags (s.claimed.insert name e)
    rw [tags_insert]
    exact Multiset.mem_cons_self ..)))
  have hcurrent : tag kept ∈ s.view.claimed :=
    mem_tags_iff.2 ⟨_, kept, hk, rfl⟩
  have hbefore := hs.ledger.archive _ (Or.inr (Or.inl hcurrent))
  have hretry : (copies e.messageId (tags s.retry) : Int) = e.attempt - 1 :=
    hafter
  replace hbefore : (copies kept.messageId (tags s.retry) : Int)
    = kept.attempt - 1 := hbefore
  rw [hid] at hbefore
  have hissued : tag e ∈ h.issued := by
    rw [hcall] at hlegit
    exact hlegit
  rcases hs.ledger.stale _ hissued with hle | ⟨-, hsame⟩
  · replace hle : e.attempt ≤ (copies e.messageId (tags s.retry) : Int) := hle
    omega
  · -- the record would be that of the claim that is gone
    have htag := hsame _ hcurrent hid
    obtain ⟨c, hc, hname⟩ := hs.labelled name kept hk
    have hec : e.claimId = some c.text := by
      rw [← hc]
      exact (congrArg Tag.claim htag).symm
    have hfalse := hgone c.text hec
    rw [← hid, ← hname, contains_of_get? hk] at hfalse
    cases hfalse

end FileBacked

-- ============ the runs

theorem deliverySystem_step {ι κ : Type} {config : MailboxConfig}
    {M : TeammateMailboxStore (MailboxState ι κ)}
    {state state' : MailboxState ι κ × History UuidHex String}
    {call : MailboxCall}
    (h : (deliverySystem config M).step state call = some state') :
    Legit state.1.view state.2 call
      ∧ state' = (((M.run config call).run state.1).2,
        recorded config state.2 call ((M.run config call).run state.1).1) := by
  replace h : (if Legit state.1.view state.2 call then
      some (((M.run config call).run state.1).2,
        recorded config state.2 call ((M.run config call).run state.1).1)
    else none) = some state' := h
  split at h
  · next hlegit => exact ⟨hlegit, (Option.some.inj h).symm⟩
  · cases h

/-- In memory the mailbox is conserved at every moment of every run; on
disk just when no update overwrites a record of another claim. -/
theorem mailbox_conservation (config : MailboxConfig)
    (calls : List MailboxCall) :
    (∀ state, (deliverySystem config InMemory.store).Visits (.init, .init)
        calls state → Conserved state.1.view state.2)
    ∧ ((∀ state, (deliverySystem config FileBacked.store).Visits
          (.init, .init) calls state → Conserved state.1.view state.2)
      ↔ ∀ state call state', (deliverySystem config FileBacked.store).Takes
          (.init, .init) calls state call state' →
        ¬ FileBacked.Overwrites state.1 call) := by
  refine ⟨fun state hvisit => ?_, ?_⟩
  · have hsound : Sound id Prod.mk state.1 state.2 := by
      refine System.visits_invariant (M := deliverySystem config InMemory.store)
        (I := fun u : InMemoryMailbox × History UuidHex String =>
          Sound id Prod.mk u.1 u.2) ?_ Sound.init hvisit
      intro u call u' hu hstep
      obtain ⟨hlegit, hu'⟩ := deliverySystem_step hstep
      rw [hu']
      refine sound_run hu InMemory.delivers hlegit ?_
      intro m claimId hclaim hgone
      rw [raises_of_rules (InMemory.goneRules hgone) hclaim]
      exact hu
    exact hsound.ledger.conserved
  · refine System.visits_iff_takes_of_invariant
      (I := fun u : FileBackedMailbox × History UuidHex String =>
        Sound FileBacked.inboxName FileBacked.claimName u.1 u.2)
      (fun u hu => hu.ledger.conserved)
      (fun u call u' hu hstep hnot => ?_) (fun u call u' hu hstep hover => ?_)
      Sound.init
    · obtain ⟨hlegit, hu'⟩ := deliverySystem_step hstep
      rw [hu']
      exact sound_run hu FileBacked.delivers hlegit
        (FileBacked.leavesGone hu config hlegit hnot)
    · obtain ⟨hlegit, hu'⟩ := deliverySystem_step hstep
      rw [hu']
      exact FileBacked.not_conserved_of_overwrites hu config hlegit
        (not_not.1 hover)

/-- The first claimer wakes up: its update leaves a record of attempt one,
which the retry archive says is over. -/
theorem stale_update_breaks_archive : ¬ ∀ calls state,
    (deliverySystem sampleConfig FileBacked.store).Visits (.init, .init)
      calls state → Conserved state.1.view state.2 := by
  intro hall
  have htest : ((deliverySystem sampleConfig FileBacked.store).run
      (.init, .init) (reclaimedCalls ++ [.updateClaim sampleClaim])).any
      (fun state => decide (tag sampleClaim ∈ state.1.view.claimed
        ∧ copies sampleItem.messageId state.1.view.retry = 1)) = true := by
    decide +kernel
  obtain ⟨state, hstate, htest⟩ := (Option.any_eq_true ..).1 htest
  obtain ⟨hclaimed, hretry⟩ := of_decide_eq_true htest
  have harchive := (hall _ state (System.Visits.finish hstate)).archive
    (tag sampleClaim) (Or.inr (Or.inl hclaimed))
  replace harchive : (copies sampleItem.messageId state.1.view.retry : Int)
    = 1 - 1 := harchive
  omega

end WeaveRuntime.Teammates
