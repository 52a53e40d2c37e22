/-
Claim fencing: a call that carries a claim touches only what is claimed
under it.

`Fenced` says it of one call in one state, for a mailbox that keeps the
claim `(m, c)` under `key m c`. In memory every call is fenced, since the
key is exact. On disk a call whose claim is gone takes the first file of
the message instead (`claimPath`), so it is fenced unless the message is
claimed under another id at that moment (`Redirected`).

The runs are compared step by step: what makes a step of the disk mailbox
fenced is read off the state before it, given that every record is kept
under the claim it holds (`Labelled`), which fenced steps keep.
-/
import WeaveRuntime.Lib.System
import WeaveRuntime.Teammates.Mailbox

namespace WeaveRuntime.Teammates

open Lib
open Python
open Method (ne_error_bind_pure run_bind_of_error run_bind_of_ok
  run_lift_ok_bind run_read_bind run_write_bind state_bind_pure)

-- ============= fencing

def MailboxCall.claim : MailboxCall → Option (UuidHex × Option String)
  | .updateClaim envelope => some (envelope.messageId, envelope.claimId)
  | .heartbeat messageId claimId _ => some (messageId, some claimId)
  | .completeDone envelope _ _ => some (envelope.messageId, envelope.claimId)
  | .failOrRetry envelope _ _ _ _ _ =>
    some (envelope.messageId, envelope.claimId)
  | .publish _ _ => none
  | .claimNext _ _ _ _ => none

section Gone

variable {σ : Type}

structure GoneRules (M : TeammateMailboxStore σ) (s : σ) (m : UuidHex)
    (claimId : Option String) : Prop where
  update : ∀ e : MailboxEnvelope, e.messageId = m → e.claimId = claimId →
    (M.updateClaim e).run s = (.error (.fileNotFound m), s)
  move : ∀ e : MailboxEnvelope, ∀ bucket, e.messageId = m →
    e.claimId = claimId →
    (M.moveClaimToTerminal e bucket).run s = (.error (.fileNotFound m), s)
  read : ∀ c, claimId = some c →
    (M.readClaim m c).run s = (.error (.fileNotFound m), s)

variable {M : TeammateMailboxStore σ} {s : σ} {config : MailboxConfig}
  {m : UuidHex} {claimId : Option String}

theorem raises_of_rules {call : MailboxCall} (h : GoneRules M s m claimId)
    (hclaim : call.claim = some (m, claimId)) :
    (M.run config call).run s = (.error (.fileNotFound m), s) := by
  cases call with
  | updateClaim e =>
    cases hclaim
    exact run_bind_of_error (h.update e rfl rfl)
  | heartbeat m' c' now =>
    cases hclaim
    have hrun : (M.heartbeat m c' now).run s
        = (.error (.fileNotFound m), s) :=
      run_bind_of_error (h.read c' rfl)
    exact run_bind_of_error hrun
  | completeDone e reason now =>
    cases hclaim
    exact run_bind_of_error (h.move _ .done rfl rfl)
  | failOrRetry e reason r now backoffEnd tempId =>
    cases hclaim
    have hrun : (M.failOrRetry config e reason r now backoffEnd
        tempId).run s = (.error (.fileNotFound e.messageId), s) := by
      unfold TeammateMailboxStore.failOrRetry
      split
      · exact run_bind_of_error (h.move _ .failed rfl rfl)
      · exact run_bind_of_error (h.move _ .retry rfl rfl)
    exact run_bind_of_error hrun
  | _ => cases hclaim

end Gone

section Labelled

variable {ι κ : Type} [DecidableEq κ] {key : UuidHex → String → κ}
  {s : MailboxState ι κ} {m : UuidHex} {c : String}

/-- Every claimed record is kept under the claim it holds, one that
`claim_next` made. -/
def Labelled (key : UuidHex → String → κ) (s : MailboxState ι κ) : Prop :=
  ∀ k e, s.claimed.get? k = some e →
    ∃ c : UuidHex, e.claimId = some c.text ∧ k = key e.messageId c.text

theorem labelled_init (key : UuidHex → String → κ) :
    Labelled key (.init : MailboxState ι κ) := by
  intro k e he
  cases he

theorem Labelled.held (h : Labelled key s)
    (hkey : ∀ m c m' c', key m c = key m' c' → m = m' ∧ c = c')
    (hlive : s.claimed.contains (key m c) = true) :
    ∃ e, s.claimed.get? (key m c) = some e ∧ e.messageId = m
      ∧ e.claimId = some c ∧ ∃ d : UuidHex, c = d.text := by
  obtain ⟨e, he⟩ := Dict.mem_keys_iff.1 (Dict.contains_iff.1 hlive)
  obtain ⟨d, hd, hk⟩ := h _ e he
  obtain ⟨hm, hc⟩ := hkey _ _ _ _ hk
  exact ⟨e, he, hm.symm, hc ▸ hd, d, hc⟩

end Labelled

section Fenced

variable {ι κ : Type} [DecidableEq ι] [DecidableEq κ]

/-- From `s` to `s'` nothing changes but the record of the claim `(m, c)`
under `k`, in whatever bucket, and the inbox may gain documents of the
message. -/
structure OnlyRecord (m : UuidHex) (c : String) (k : κ)
    (s s' : MailboxState ι κ) : Prop where
  claimed : ∀ k', k' ≠ k → s'.claimed.get? k' = s.claimed.get? k'
  own : ∀ e, s'.claimed.get? k = some e →
    s.claimed.get? k = some e ∨ (e.messageId = m ∧ e.claimId = some c)
  done : ∀ k', k' ≠ k → s'.done.get? k' = s.done.get? k'
  failed : ∀ k', k' ≠ k → s'.failed.get? k' = s.failed.get? k'
  retry : ∀ k', k' ≠ k → s'.retry.get? k' = s.retry.get? k'
  kept : ∀ i e, s.inbox.get? i = some e → s'.inbox.get? i = some e
  gained : ∀ i e, s'.inbox.get? i = some e →
    s.inbox.get? i = some e ∨ e.messageId = m

def Gone (key : UuidHex → String → κ) (s : MailboxState ι κ) (m : UuidHex)
    (claimId : Option String) : Prop :=
  ∀ c, claimId = some c → s.claimed.contains (key m c) = false

/-- The call changes only the record of its claim, and where there is none
it raises and changes nothing. -/
def Fenced (key : UuidHex → String → κ) (config : MailboxConfig)
    (M : TeammateMailboxStore (MailboxState ι κ)) (s : MailboxState ι κ)
    (call : MailboxCall) : Prop :=
  ∀ m claimId, call.claim = some (m, claimId) →
    (∀ c, claimId = some c → s.claimed.contains (key m c) = true →
      OnlyRecord m c (key m c) s ((M.run config call).run s).2)
    ∧ (Gone key s m claimId →
      (M.run config call).run s = (.error (.fileNotFound m), s))

variable {m : UuidHex} {c : String} {k : κ} {s t u : MailboxState ι κ}

theorem OnlyRecord.refl (s : MailboxState ι κ) : OnlyRecord m c k s s :=
  ⟨fun _ _ => rfl, fun _ h => Or.inl h, fun _ _ => rfl, fun _ _ => rfl,
    fun _ _ => rfl, fun _ _ h => h, fun _ _ h => Or.inl h⟩

theorem OnlyRecord.trans (h : OnlyRecord m c k s t)
    (h' : OnlyRecord m c k t u) : OnlyRecord m c k s u where
  claimed k' hne := (h'.claimed k' hne).trans (h.claimed k' hne)
  own e he := (h'.own e he).elim (h.own e) Or.inr
  done k' hne := (h'.done k' hne).trans (h.done k' hne)
  failed k' hne := (h'.failed k' hne).trans (h.failed k' hne)
  retry k' hne := (h'.retry k' hne).trans (h.retry k' hne)
  kept i e he := h'.kept i e (h.kept i e he)
  gained i e he := (h'.gained i e he).elim (h.gained i e) Or.inr

variable {e : MailboxEnvelope}

theorem OnlyRecord.write (s : MailboxState ι κ) (hid : e.messageId = m)
    (hc : e.claimId = some c) :
    OnlyRecord m c k s { s with claimed := s.claimed.insert k e } := by
  have hsame : OnlyRecord m c k s s := .refl s
  refine { hsame with
    claimed := fun _ hne => Dict.get?_insert_of_ne _ _ hne
    own := fun f hf => ?_ }
  dsimp only at hf
  rw [Dict.get?_insert_self] at hf
  cases hf
  exact Or.inr ⟨hid, hc⟩

theorem OnlyRecord.settle (s : MailboxState ι κ)
    (bucket : MailboxTerminalState) (e : MailboxEnvelope) :
    OnlyRecord m c k s (s.settle bucket k e) := by
  have hsame : OnlyRecord m c k s s := .refl s
  have herase : ∀ k', k' ≠ k →
      (s.claimed.erase k).get? k' = s.claimed.get? k' :=
    fun _ hne => Dict.get?_erase_of_ne _ hne
  have hgone : ∀ f, (s.claimed.erase k).get? k = some f →
      s.claimed.get? k = some f ∨ (f.messageId = m ∧ f.claimId = some c) := by
    intro f hf
    rw [Dict.get?_erase_self] at hf
    cases hf
  cases bucket with
  | done =>
    exact { hsame with
      claimed := herase
      own := hgone
      done := fun _ hne => Dict.get?_insert_of_ne _ _ hne }
  | failed =>
    exact { hsame with
      claimed := herase
      own := hgone
      failed := fun _ hne => Dict.get?_insert_of_ne _ _ hne }
  | retry =>
    exact { hsame with
      claimed := herase
      own := hgone
      retry := fun _ hne => Dict.get?_insert_of_ne _ _ hne }

theorem OnlyRecord.requeue (s : MailboxState ι κ) {i : ι}
    (hfree : i ∉ s.inbox.keys) (hid : e.messageId = m) :
    OnlyRecord m c k s { s with inbox := s.inbox.insert i e } := by
  have hsame : OnlyRecord m c k s s := .refl s
  refine { hsame with kept := fun j f hj => ?_, gained := fun j f hj => ?_ }
  · have hne : j ≠ i := by
      intro heq
      rw [heq] at hj
      exact hfree (Dict.mem_keys_iff.2 ⟨f, hj⟩)
    exact (Dict.get?_insert_of_ne _ _ hne).trans hj
  · dsimp only at hj
    rw [Dict.get?_insert] at hj
    split at hj
    · cases hj
      exact Or.inr hid
    · exact Or.inl hj

structure ClaimRules (key : UuidHex → String → κ)
    (M : TeammateMailboxStore (MailboxState ι κ)) (s : MailboxState ι κ)
    (m : UuidHex) (c : String) : Prop where
  update : ∀ e : MailboxEnvelope, e.messageId = m → e.claimId = some c →
    (M.updateClaim e).run s
      = (.ok e, { s with claimed := s.claimed.insert (key m c) e })
  move : ∀ e : MailboxEnvelope, ∀ bucket, e.messageId = m →
    e.claimId = some c →
    (M.moveClaimToTerminal e bucket).run s
      = (.ok e, s.settle bucket (key m c) e)
  read : ∃ e, (M.readClaim m c).run s = (.ok e, s)
    ∧ e.messageId = m ∧ e.claimId = some c

variable {key : UuidHex → String → κ} {config : MailboxConfig}
  {M : TeammateMailboxStore (MailboxState ι κ)}

theorem onlyRecord_failOrRetry (h : ClaimRules key M s m c)
    (hid : e.messageId = m) (hc : e.claimId = some c) {tempId : UuidHex}
    (hpublish : ∀ t : MailboxState ι κ, t.inbox = s.inbox →
      ∀ f : MailboxEnvelope, f.messageId = m →
      OnlyRecord m c (key m c) t ((M.publish f tempId).run t).2)
    (reason : String) (retryMaxAttempts : Option Int)
    (now backoffEnd : Datetime) :
    OnlyRecord m c (key m c) s ((M.failOrRetry config e reason
      retryMaxAttempts now backoffEnd tempId).run s).2 := by
  unfold TeammateMailboxStore.failOrRetry
  split
  · rw [run_bind_of_ok (h.move
      (e.withTerminal .failed (some reason) now) .failed hid hc)]
    exact OnlyRecord.settle s .failed _
  · rw [run_bind_of_ok (h.move
      (e.withTerminal .retry (some reason) now) .retry hid hc)]
    dsimp only
    rw [state_bind_pure]
    refine OnlyRecord.trans (OnlyRecord.settle s .retry
      (e.withTerminal .retry (some reason) now)) ?_
    exact hpublish (s.settle .retry (key m c)
      (e.withTerminal .retry (some reason) now))
      (MailboxState.inbox_settle ..) _ hid

theorem onlyRecord_of_rules {call : MailboxCall} (h : ClaimRules key M s m c)
    (hclaim : call.claim = some (m, some c))
    (hpublish : ∀ e reason r now backoffEnd tempId,
      call = .failOrRetry e reason r now backoffEnd tempId →
      ∀ t : MailboxState ι κ, t.inbox = s.inbox →
      ∀ f : MailboxEnvelope, f.messageId = m →
      OnlyRecord m c (key m c) t ((M.publish f tempId).run t).2) :
    OnlyRecord m c (key m c) s ((M.run config call).run s).2 := by
  cases call with
  | updateClaim e =>
    obtain ⟨hid, hc⟩ := Prod.mk.inj (Option.some.inj hclaim)
    show OnlyRecord _ _ _ s ((M.updateClaim e >>= _).run s).2
    rw [state_bind_pure, h.update e hid hc]
    exact .write s hid hc
  | heartbeat m' c' now =>
    cases hclaim
    obtain ⟨e, hread, hid, hc⟩ := h.read
    show OnlyRecord _ _ _ s ((M.heartbeat m c now >>= _).run s).2
    rw [state_bind_pure]
    unfold TeammateMailboxStore.heartbeat
    rw [run_bind_of_ok hread, h.update (e.withHeartbeat now) hid hc]
    exact .write s hid hc
  | completeDone e reason now =>
    obtain ⟨hid, hc⟩ := Prod.mk.inj (Option.some.inj hclaim)
    show OnlyRecord _ _ _ s ((M.completeDone e reason now >>= _).run s).2
    rw [state_bind_pure]
    unfold TeammateMailboxStore.completeDone
    rw [h.move (e.withTerminal .done reason now) .done hid hc]
    exact .settle s .done _
  | failOrRetry e reason r now backoffEnd tempId =>
    obtain ⟨hid, hc⟩ := Prod.mk.inj (Option.some.inj hclaim)
    show OnlyRecord _ _ _ s ((M.failOrRetry config e reason r now
      backoffEnd tempId >>= _).run s).2
    rw [state_bind_pure]
    exact onlyRecord_failOrRetry h hid hc
      (hpublish e reason r now backoffEnd tempId rfl) reason r now backoffEnd
  | _ => cases hclaim

theorem Labelled.of_fenced (h : Labelled key s)
    (hkey : ∀ m c m' c', key m c = key m' c' → m = m' ∧ c = c')
    {call : MailboxCall} (hfenced : Fenced key config M s call)
    {claimId : Option String} (hclaim : call.claim = some (m, claimId)) :
    Labelled key ((M.run config call).run s).2 := by
  obtain ⟨hthere, hgone⟩ := hfenced m claimId hclaim
  by_cases hlive : ∃ c, claimId = some c
      ∧ s.claimed.contains (key m c) = true
  · obtain ⟨c, hc, hlive⟩ := hlive
    have honly := hthere c hc hlive
    obtain ⟨e₀, -, -, -, d, hd⟩ := h.held hkey hlive
    intro k e he
    by_cases hk : k = key m c
    · rw [hk] at he ⊢
      rcases honly.own e he with hold | ⟨hid, hown⟩
      · exact h _ e hold
      · exact ⟨d, hd ▸ hown, by rw [hid, hd]⟩
    · rw [honly.claimed k hk] at he
      exact h k e he
  · have hnone : Gone key s m claimId := by
      intro c hc
      rw [← Bool.not_eq_true]
      exact fun hlive' => hlive ⟨c, hc, hlive'⟩
    rw [hgone hnone]
    exact h

end Fenced

-- =========== in memory

namespace InMemory

variable {e : MailboxEnvelope} {s : InMemoryMailbox}

theorem run_heldKey {c : String} (hc : e.claimId = some c)
    (hlive : s.claimed.contains (e.messageId, c) = true) :
    (heldKey e).run s = (.ok (e.messageId, c), s) := by
  unfold heldKey claimKey
  rw [hc, run_lift_ok_bind, run_read_bind, if_pos hlive]
  rfl

theorem run_heldKey_gone (hgone : Gone Prod.mk s e.messageId e.claimId) :
    (heldKey e).run s = (.error (.fileNotFound e.messageId), s) := by
  unfold heldKey claimKey
  cases hc : e.claimId with
  | none => rfl
  | some c =>
    have hnot : ¬ s.claimed.contains (e.messageId, c) = true := by
      rw [hgone c hc]
      exact Bool.false_ne_true
    dsimp only
    rw [run_lift_ok_bind, run_read_bind, if_neg hnot]
    rfl

theorem run_publish (hfree : e.messageId ∉ s.inbox.keys) :
    (publish e).run s = (.ok e,
      { s with inbox := s.inbox.insert e.messageId e }) := by
  unfold publish
  rw [run_read_bind,
    if_neg fun hcontains => hfree (Dict.contains_iff.1 hcontains)]
  rfl

theorem run_publish_taken (htaken : e.messageId ∈ s.inbox.keys) :
    (publish e).run s = (.error (.fileExists e.messageId), s) := by
  unfold publish
  rw [run_read_bind, if_pos (Dict.contains_iff.2 htaken)]
  rfl

theorem key_injective (m : UuidHex) (c : String) (m' : UuidHex) (c' : String)
    (h : (m, c) = (m', c')) : m = m' ∧ c = c' := Prod.mk.inj h

theorem claimRules (h : Labelled Prod.mk s) {m : UuidHex} {c : String}
    (hlive : s.claimed.contains (m, c) = true) :
    ClaimRules Prod.mk store s m c where
  update e hid hc := by
    rw [← hid] at hlive ⊢
    show (updateClaim e).run s = _
    unfold updateClaim
    rw [run_bind_of_ok (run_heldKey hc hlive)]
    rfl
  move e bucket hid hc := by
    rw [← hid] at hlive ⊢
    show (moveClaimToTerminal e bucket).run s = _
    unfold moveClaimToTerminal
    rw [run_bind_of_ok (run_heldKey hc hlive)]
    rfl
  read := by
    obtain ⟨e, he, hid, hc, -⟩ := h.held key_injective hlive
    refine ⟨e, ?_, hid, hc⟩
    show (readClaim m c).run s = _
    unfold readClaim
    rw [run_read_bind, he]
    rfl

theorem goneRules {m : UuidHex} {claimId : Option String}
    (hgone : Gone Prod.mk s m claimId) :
    GoneRules store s m claimId where
  update e hid hc := by
    rw [← hid, ← hc] at hgone
    rw [← hid]
    exact run_bind_of_error (run_heldKey_gone hgone)
  move e bucket hid hc := by
    rw [← hid, ← hc] at hgone
    rw [← hid]
    exact run_bind_of_error (run_heldKey_gone hgone)
  read c hc := by
    have hnone : s.claimed.get? (m, c) = none := by
      rw [Dict.get?_eq_none_iff, ← Dict.contains_iff, hgone c hc]
      exact Bool.false_ne_true
    show (readClaim m c).run s = _
    unfold readClaim
    rw [run_read_bind, hnone]
    rfl

theorem onlyRecord_publish {c : String} {k : UuidHex × String}
    (t : InMemoryMailbox) (f : MailboxEnvelope) (tempId : UuidHex) :
    OnlyRecord f.messageId c k t ((store.publish f tempId).run t).2 := by
  show OnlyRecord _ c k t ((publish f).run t).2
  by_cases htaken : f.messageId ∈ t.inbox.keys
  · rw [run_publish_taken htaken]
    exact .refl t
  · rw [run_publish htaken]
    exact .requeue t htaken rfl

theorem fenced (h : Labelled Prod.mk s) (config : MailboxConfig)
    (call : MailboxCall) : Fenced Prod.mk config store s call := by
  intro m claimId hclaim
  refine ⟨fun c hc hlive => ?_, fun hgone => ?_⟩
  · rw [hc] at hclaim
    refine onlyRecord_of_rules (claimRules h hlive) hclaim ?_
    intro e reason r now backoffEnd tempId hcall t ht f hf
    rw [← hf]
    exact onlyRecord_publish t f tempId
  · exact raises_of_rules (goneRules hgone) hclaim

theorem labelled_run (h : Labelled Prod.mk s) (config : MailboxConfig)
    (call : MailboxCall) :
    Labelled Prod.mk ((store.run config call).run s).2 := by
  cases hclaim : call.claim with
  | some claim => exact h.of_fenced key_injective (fenced h config call) hclaim
  | none =>
    cases call with
    | publish e tempId =>
      show Labelled _ ((publish e >>= _).run s).2
      rw [state_bind_pure]
      by_cases htaken : e.messageId ∈ s.inbox.keys
      · rw [run_publish_taken htaken]
        exact h
      · rw [run_publish htaken]
        exact h
    | claimNext claimer lease now claimId =>
      show Labelled _ ((claimNext config claimer lease now
        claimId >>= _).run s).2
      rw [state_bind_pure]
      unfold claimNext
      rw [run_read_bind]
      cases nextReady s.inbox now with
      | none => exact h
      | some entry =>
        obtain ⟨messageId, e⟩ := entry
        intro k f hf
        replace hf : (s.claimed.insert (e.messageId, claimId.text)
          (e.withClaim claimId.text claimer (config.lease lease e)
            now)).get? k = some f := hf
        rw [Dict.get?_insert] at hf
        split at hf
        · next hk =>
          cases hf
          exact ⟨claimId, rfl, hk⟩
        · exact h k f hf
    | _ => cases hclaim

end InMemory

-- ============= on disk

namespace FileBacked

theorem plain_of_isHexDigit {c : Char} (h : isHexDigit c = true) :
    Plain c := by
  refine ⟨?_, ?_, ?_⟩
  all_goals
    intro heq
    rw [heq] at h
    revert h
    decide

theorem claimName_toList (m : UuidHex) (c : String) :
    (claimName m c).toList = m.text.toList ++ ("--".toList ++ c.toList)
      ++ ".json".toList := by
  unfold claimName
  simp only [String.toList_append, List.append_assoc]

theorem uuid_length (m : UuidHex) : m.text.toList.length = 32 :=
  m.digits.1

theorem claimName_injective (m : UuidHex) (c : String) (m' : UuidHex)
    (c' : String) (h : claimName m c = claimName m' c') :
    m = m' ∧ c = c' := by
  have hlist := congrArg String.toList h
  rw [claimName_toList, claimName_toList] at hlist
  have hfront := List.append_cancel_right hlist
  obtain ⟨hm, hrest⟩ := List.append_inj hfront
    ((uuid_length m).trans (uuid_length m').symm)
  have hc := List.append_cancel_left hrest
  refine ⟨?_, String.toList_injective hc⟩
  cases m
  cases m'
  cases String.toList_injective hm
  rfl

theorem plain_json : ∀ d ∈ ".json".toList, Plain d := by
  intro d hd
  replace hd : d ∈ ['.', 'j', 's', 'o', 'n'] := hd
  simp only [List.mem_cons, List.not_mem_nil, or_false] at hd
  rcases hd with rfl | rfl | rfl | rfl | rfl
  all_goals exact ⟨by decide, by decide, by decide⟩

/-- The pattern of a message matches the files of its claims. -/
theorem fnmatch_claimName (m m' : UuidHex) (c : String) :
    fnmatch (claimName m' c) (m.text ++ "--*.json") = true ↔ m' = m := by
  have hpattern : m.text ++ "--*.json" = (m.text ++ "--") ++ "*" ++ ".json" := by
    rw [String.append_assoc, String.append_assoc]
    rfl
  have hbefore : ∀ d ∈ (m.text ++ "--").toList, Plain d := by
    intro d hd
    rw [String.toList_append, List.mem_append] at hd
    rcases hd with hd | hd
    · exact plain_of_isHexDigit (List.all_eq_true.1 m.digits.2 d hd)
    · have hdash : d = '-' := by
        simpa using hd
      rw [hdash]
      exact ⟨by decide, by decide, by decide⟩
  rw [hpattern, fnmatch_star_iff hbefore plain_json, claimName_toList]
  refine ⟨fun h => ?_, fun h => ?_⟩
  · obtain ⟨mid, hmid⟩ := h
    have hfront := List.append_cancel_right hmid
    rw [String.toList_append, List.append_assoc] at hfront
    have hm := (List.append_inj hfront
      ((uuid_length m').trans (uuid_length m).symm)).1
    cases m
    cases m'
    cases String.toList_injective hm
    rfl
  · refine ⟨c.toList, ?_⟩
    rw [h, String.toList_append]
    simp only [List.append_assoc]

theorem mem_glob {directory : Dict String MailboxEnvelope}
    {pattern name : String} : name ∈ glob directory pattern
      ↔ name ∈ directory.keys ∧ fnmatch name pattern = true := by
  unfold glob
  rw [List.mem_insertionSort, List.mem_filter]

variable {call : MailboxCall} {claimId : Option String} {e : MailboxEnvelope}
  {m : UuidHex} {s : FileBackedMailbox}

theorem run_claimPath {c : String} (hne : c ≠ "")
    (hlive : s.claimed.contains (claimName m c) = true) :
    (claimPath m (some c)).run s = (.ok (claimName m c), s) := by
  have hcandidate : (((some c).filter (· ≠ "")).map (claimName m)).filter
      s.claimed.contains = some (claimName m c) := by
    simp [hne, hlive]
  unfold claimPath
  rw [run_read_bind]
  dsimp only
  rw [hcandidate]
  rfl

theorem run_claimPath_gone (hgone : Gone claimName s m claimId) :
    (claimPath m claimId).run s
      = (orRaise (glob s.claimed (m.text ++ "--*.json")).head?
          (.fileNotFound m), s) := by
  have hcandidate : ((claimId.filter (· ≠ "")).map (claimName m)).filter
      s.claimed.contains = none := by
    cases claimId with
    | none => rfl
    | some c =>
      have hfalse := hgone c rfl
      by_cases hne : c = ""
      · simp [hne]
      · simp [hne, hfalse]
  unfold claimPath
  rw [run_read_bind]
  dsimp only
  rw [hcandidate]
  rfl

def Claimed (s : FileBackedMailbox) (m : UuidHex) : Prop :=
  ∃ e ∈ s.claimed.values, e.messageId = m

instance (s : FileBackedMailbox) (m : UuidHex) : Decidable (Claimed s m) :=
  inferInstanceAs (Decidable (∃ e ∈ _, _))

theorem glob_claimed (h : Labelled claimName s) {name : String} :
    name ∈ glob s.claimed (m.text ++ "--*.json")
      ↔ ∃ e, s.claimed.get? name = some e ∧ e.messageId = m := by
  rw [mem_glob, Dict.mem_keys_iff]
  refine ⟨fun hmem => ?_, fun hmem => ?_⟩
  · obtain ⟨⟨e, he⟩, hmatch⟩ := hmem
    obtain ⟨c, -, hname⟩ := h name e he
    rw [hname, fnmatch_claimName] at hmatch
    exact ⟨e, he, hmatch⟩
  · obtain ⟨e, he, hid⟩ := hmem
    obtain ⟨c, -, hname⟩ := h name e he
    refine ⟨⟨e, he⟩, ?_⟩
    rw [hname, fnmatch_claimName]
    exact hid

theorem run_claimPath_none (h : Labelled claimName s)
    (hgone : Gone claimName s m claimId) (hfree : ¬ Claimed s m) :
    (claimPath m claimId).run s = (.error (.fileNotFound m), s) := by
  have hnil : glob s.claimed (m.text ++ "--*.json") = [] := by
    refine List.eq_nil_iff_forall_not_mem.2 fun name hname => hfree ?_
    obtain ⟨e, he, hid⟩ := (glob_claimed h).1 hname
    exact ⟨e, Dict.mem_values_iff.2 ⟨name, he⟩, hid⟩
  rw [run_claimPath_gone hgone, hnil]
  rfl

theorem run_claimPath_other (h : Labelled claimName s)
    (hgone : Gone claimName s m claimId) (hclaimed : Claimed s m) :
    ∃ name e, (claimPath m claimId).run s = (.ok name, s)
      ∧ s.claimed.get? name = some e ∧ e.messageId = m := by
  obtain ⟨e, he, hid⟩ := hclaimed
  obtain ⟨name, hname⟩ := Dict.mem_values_iff.1 he
  have hmem := (glob_claimed h).2 ⟨e, hname, hid⟩
  rw [run_claimPath_gone hgone]
  cases hglob : glob s.claimed (m.text ++ "--*.json") with
  | nil =>
    rw [hglob] at hmem
    cases hmem
  | cons first rest =>
    have hfirst : first ∈ glob s.claimed (m.text ++ "--*.json") := by
      rw [hglob]
      exact List.mem_cons_self ..
    obtain ⟨f, hf, hfid⟩ := (glob_claimed h).1 hfirst
    exact ⟨first, f, rfl, hf, hfid⟩

theorem run_publish {tempId : UuidHex}
    (hfresh : tempName e.messageId tempId ∉ s.inbox.keys)
    (hfree : inboxName e.messageId
      ∉ (s.inbox.insert (tempName e.messageId tempId) e).keys) :
    (publish e tempId).run s = (.ok e,
      { s with inbox := s.inbox.insert (inboxName e.messageId) e }) := by
  unfold publish
  rw [run_write_bind, run_read_bind,
    if_neg fun hcontains => hfree (Dict.contains_iff.1 hcontains),
    run_write_bind]
  dsimp only
  rw [Dict.erase_insert, Dict.erase_of_not_mem hfresh]
  rfl

theorem run_publish_taken {tempId : UuidHex} (htaken : inboxName e.messageId
      ∈ (s.inbox.insert (tempName e.messageId tempId) e).keys) :
    (publish e tempId).run s = (.error (.fileExists e.messageId),
      { s with inbox := s.inbox.insert (tempName e.messageId tempId) e }) := by
  unfold publish
  rw [run_write_bind, run_read_bind,
    if_pos (Dict.contains_iff.2 htaken)]
  rfl

theorem onlyRecord_publish {c k : String} {t : FileBackedMailbox}
    {f : MailboxEnvelope} {tempId : UuidHex}
    (hfresh : tempName f.messageId tempId ∉ t.inbox.keys) :
    OnlyRecord f.messageId c k t ((store.publish f tempId).run t).2 := by
  show OnlyRecord _ c k t ((publish f tempId).run t).2
  by_cases htaken : inboxName f.messageId
      ∈ (t.inbox.insert (tempName f.messageId tempId) f).keys
  · rw [run_publish_taken htaken]
    exact .requeue t hfresh rfl
  · rw [run_publish hfresh htaken]
    refine .requeue t (fun hmem => htaken ?_) rfl
    exact Dict.mem_keys_insert.2 (Or.inr hmem)

theorem uuid_ne_empty (c : UuidHex) : c.text ≠ "" := by
  intro hempty
  have hlen := c.digits.1
  rw [hempty] at hlen
  cases hlen

theorem claimId_reload_uuid {c : UuidHex} (hc : e.claimId = some c.text) :
    e.reload.claimId = some c.text := by
  rw [MailboxEnvelope.claimId_reload, hc,
    coerceOptional_of_stripped c.stripped]

theorem claimRules (h : Labelled claimName s) {c : String}
    (hlive : s.claimed.contains (claimName m c) = true) :
    ClaimRules claimName store s m c := by
  obtain ⟨e₀, he₀, hid₀, hc₀, d, hd⟩ := h.held claimName_injective hlive
  have hpath : (claimPath m (some c)).run s = (.ok (claimName m c), s) :=
    run_claimPath (hd ▸ uuid_ne_empty d) hlive
  refine ⟨fun e hid hc => ?_, fun e bucket hid hc => ?_, ?_⟩
  · show (updateClaim e).run s = _
    unfold updateClaim
    rw [hid, hc, run_bind_of_ok hpath]
    rfl
  · show (moveClaimToTerminal e bucket).run s = _
    unfold moveClaimToTerminal
    rw [hid, hc, run_bind_of_ok hpath, run_write_bind,
      run_write_bind]
    unfold MailboxState.settle
    rw [Dict.erase_insert]
    rfl
  · refine ⟨e₀.reload, ?_, hid₀, ?_⟩
    · show (readClaim m c).run s = _
      unfold readClaim
      rw [run_bind_of_ok hpath, run_read_bind, he₀]
      rfl
    · rw [hd] at hc₀ ⊢
      exact claimId_reload_uuid hc₀

theorem goneRules (h : Labelled claimName s)
    (hgone : Gone claimName s m claimId) (hfree : ¬ Claimed s m) :
    GoneRules store s m claimId := by
  have hpath := run_claimPath_none h hgone hfree
  refine ⟨fun e hid hc => ?_, fun e bucket hid hc => ?_, fun c hc => ?_⟩
  · show (updateClaim e).run s = _
    unfold updateClaim
    rw [hid, hc]
    exact run_bind_of_error hpath
  · show (moveClaimToTerminal e bucket).run s = _
    unfold moveClaimToTerminal
    rw [hid, hc]
    exact run_bind_of_error hpath
  · rw [hc] at hpath
    exact run_bind_of_error hpath

/-- The temporary file a call may write is new. -/
def Fresh (s : FileBackedMailbox) : MailboxCall → Prop
  | .publish envelope tempId =>
    tempName envelope.messageId tempId ∉ s.inbox.keys
  | .failOrRetry envelope _ _ _ _ tempId =>
    tempName envelope.messageId tempId ∉ s.inbox.keys
  | _ => True

instance (s : FileBackedMailbox) (call : MailboxCall) :
    Decidable (Fresh s call) := by
  cases call with
  | publish e tempId => exact inferInstanceAs (Decidable (_ ∉ _))
  | failOrRetry e reason r now backoffEnd tempId =>
    exact inferInstanceAs (Decidable (_ ∉ _))
  | _ => exact inferInstanceAs (Decidable True)

/-- The call is about a claim that is gone, of a message that is claimed
under another id. -/
def Redirected (s : FileBackedMailbox) (call : MailboxCall) : Prop :=
  ∃ m claimId, call.claim = some (m, claimId)
    ∧ Gone claimName s m claimId ∧ Claimed s m

/-- `publish` raises nothing about claims. -/
theorem publish_ne_fileNotFound (s : FileBackedMailbox) (m : UuidHex)
    (e : MailboxEnvelope) (tempId : UuidHex) :
    ((publish e tempId).run s).1 ≠ .error (.fileNotFound m) := by
  unfold publish
  rw [run_write_bind, run_read_bind]
  split
  · exact fun heq => nomatch heq
  · exact fun heq => nomatch heq

theorem ne_fileNotFound_of_redirected (h : Labelled claimName s)
    (config : MailboxConfig) (hclaim : call.claim = some (m, claimId))
    (hgone : Gone claimName s m claimId) (hclaimed : Claimed s m) :
    ((store.run config call).run s).1 ≠ .error (.fileNotFound m) := by
  obtain ⟨name, e₀, hpath, he₀, hid₀⟩ := run_claimPath_other h hgone hclaimed
  have hmove : ∀ (e : MailboxEnvelope) bucket, e.messageId = m →
      e.claimId = claimId →
      ∃ t, (moveClaimToTerminal e bucket).run s = (.ok e, t) := by
    intro e bucket hid hc
    unfold moveClaimToTerminal
    rw [hid, hc, run_bind_of_ok hpath]
    exact ⟨_, rfl⟩
  cases call with
  | updateClaim e =>
    cases hclaim
    refine ne_error_bind_pure _ ?_
    show ((updateClaim e).run s).1 ≠ _
    unfold updateClaim
    rw [run_bind_of_ok hpath]
    exact fun heq => nomatch heq
  | heartbeat m' c now =>
    cases hclaim
    refine ne_error_bind_pure _ ?_
    obtain ⟨d, hd, hname⟩ := h name e₀ he₀
    have hread : (store.readClaim m c).run s = (.ok e₀.reload, s) := by
      show (readClaim m c).run s = _
      unfold readClaim
      rw [run_bind_of_ok hpath, run_read_bind, he₀]
      rfl
    -- the record it reads is updated under its own claim
    have hlive : s.claimed.contains (claimName m d.text) = true := by
      refine Dict.contains_iff.2 (Dict.mem_keys_iff.2 ⟨e₀, ?_⟩)
      rw [← hid₀, ← hname]
      exact he₀
    unfold TeammateMailboxStore.heartbeat
    rw [run_bind_of_ok hread, (claimRules h hlive).update
      (e₀.reload.withHeartbeat now) hid₀ (claimId_reload_uuid hd)]
    exact fun heq => nomatch heq
  | completeDone e reason now =>
    cases hclaim
    refine ne_error_bind_pure _ ?_
    obtain ⟨t, ht⟩ := hmove (e.withTerminal .done reason now) .done rfl rfl
    show ((moveClaimToTerminal (e.withTerminal .done reason now)
      .done).run s).1 ≠ _
    rw [ht]
    exact fun heq => nomatch heq
  | failOrRetry e reason r now backoffEnd tempId =>
    cases hclaim
    refine ne_error_bind_pure _ ?_
    unfold TeammateMailboxStore.failOrRetry
    split
    · obtain ⟨t, ht⟩ := hmove (e.withTerminal .failed (some reason) now)
        .failed rfl rfl
      refine ne_error_bind_pure _ ?_
      show ((moveClaimToTerminal _ _).run s).1 ≠ _
      rw [ht]
      exact fun heq => nomatch heq
    · obtain ⟨t, ht⟩ := hmove (e.withTerminal .retry (some reason) now)
        .retry rfl rfl
      show ((moveClaimToTerminal _ _ >>= _).run s).1 ≠ _
      rw [run_bind_of_ok ht]
      exact ne_error_bind_pure _ (publish_ne_fileNotFound t _ _ _)
  | _ => cases hclaim

theorem fenced_iff (h : Labelled claimName s) (config : MailboxConfig)
    (hfresh : Fresh s call) :
    Fenced claimName config store s call ↔ ¬ Redirected s call := by
  refine ⟨fun hfenced hredirected => ?_, fun hnot m claimId hclaim => ?_⟩
  · obtain ⟨m, claimId, hclaim, hgone, hclaimed⟩ := hredirected
    refine ne_fileNotFound_of_redirected h config hclaim hgone hclaimed ?_
    rw [(hfenced m claimId hclaim).2 hgone]
  · refine ⟨fun c hc hlive => ?_, fun hgone => ?_⟩
    · rw [hc] at hclaim
      refine onlyRecord_of_rules (claimRules h hlive) hclaim ?_
      intro e reason r now backoffEnd tempId hcall t ht f hf
      rw [hcall] at hclaim hfresh
      obtain ⟨hid, -⟩ := Prod.mk.inj (Option.some.inj hclaim)
      rw [← hf]
      refine onlyRecord_publish ?_
      rw [ht, hf, ← hid]
      exact hfresh
    · refine raises_of_rules (goneRules h hgone fun hclaimed => ?_) hclaim
      exact hnot ⟨m, claimId, hclaim, hgone, hclaimed⟩

theorem labelled_run (h : Labelled claimName s) (config : MailboxConfig)
    (hfresh : Fresh s call) (hnot : ¬ Redirected s call) :
    Labelled claimName ((store.run config call).run s).2 := by
  cases hclaim : call.claim with
  | some claim =>
    exact h.of_fenced claimName_injective
      ((fenced_iff h config hfresh).2 hnot) hclaim
  | none =>
    cases call with
    | publish e tempId =>
      show Labelled _ ((publish e tempId >>= _).run s).2
      rw [state_bind_pure]
      by_cases htaken : inboxName e.messageId
          ∈ (s.inbox.insert (tempName e.messageId tempId) e).keys
      · rw [run_publish_taken htaken]
        exact h
      · rw [run_publish hfresh htaken]
        exact h
    | claimNext claimer lease now claimId =>
      show Labelled _ ((claimNext config claimer lease now
        claimId >>= _).run s).2
      rw [state_bind_pure]
      unfold claimNext
      rw [run_read_bind]
      cases nextReady s.inbox now with
      | none => exact h
      | some entry =>
        obtain ⟨source, e⟩ := entry
        intro k f hf
        replace hf : ((s.claimed.insert (claimName e.messageId
          claimId.text) e).insert (claimName e.messageId claimId.text)
          (e.withClaim claimId.text claimer (config.lease lease e)
            now)).get? k = some f := hf
        rw [Dict.insert_insert, Dict.get?_insert] at hf
        split at hf
        · next hk =>
          cases hf
          exact ⟨claimId, rfl, hk⟩
        · exact h k f hf
    | _ => cases hclaim

end FileBacked

-- ============ the runs

def inMemorySystem (config : MailboxConfig) :
    System InMemoryMailbox MailboxCall where
  step s call := some ((InMemory.store.run config call).run s).2

/-- The mailbox on disk, one call a step; a `uuid4().hex` in the name of a
temporary file is new. -/
def fileBackedSystem (config : MailboxConfig) :
    System FileBackedMailbox MailboxCall where
  step s call :=
    if FileBacked.Fresh s call then
      some ((FileBacked.store.run config call).run s).2
    else none

theorem fileBackedSystem_step {config : MailboxConfig}
    {s s' : FileBackedMailbox} {call : MailboxCall}
    (h : (fileBackedSystem config).step s call = some s') :
    FileBacked.Fresh s call
      ∧ s' = ((FileBacked.store.run config call).run s).2 := by
  replace h : (if FileBacked.Fresh s call then
      some ((FileBacked.store.run config call).run s).2 else none)
    = some s' := h
  split at h
  · next hfresh => exact ⟨hfresh, (Option.some.inj h).symm⟩
  · cases h

/-- In memory every call of every run is fenced; on disk every call of a
run is, just when none is redirected. -/
theorem claim_fencing (config : MailboxConfig) (calls : List MailboxCall) :
    (∀ s call s', (inMemorySystem config).Takes .init calls s call s' →
      Fenced Prod.mk config InMemory.store s call)
    ∧ ((∀ s call s', (fileBackedSystem config).Takes .init calls s call s' →
        Fenced FileBacked.claimName config FileBacked.store s call)
      ↔ ∀ s call s', (fileBackedSystem config).Takes .init calls s call s' →
        ¬ FileBacked.Redirected s call) := by
  refine ⟨fun s call s' htake => ?_, ?_⟩
  · have hlabelled : Labelled Prod.mk s := by
      refine System.visits_invariant (M := inMemorySystem config) ?_
        (labelled_init Prod.mk) htake.visits.1
      intro t call t' ht hstep
      rw [← Option.some.inj hstep]
      exact InMemory.labelled_run ht config call
    exact InMemory.fenced hlabelled config call
  · refine System.takes_iff_takes (I := Labelled FileBacked.claimName)
      (fun s call s' h hstep hnot => ?_) (fun s call s' h hstep => ?_)
      (labelled_init _)
    · obtain ⟨hfresh, hs'⟩ := fileBackedSystem_step hstep
      rw [hs']
      exact FileBacked.labelled_run h config hfresh hnot
    · exact FileBacked.fenced_iff h config (fileBackedSystem_step hstep).1

-- ===== a stale claimer

/-- The `n`th of a few identifiers. -/
private def sampleId (n : Fin 8) : UuidHex :=
  ⟨String.ofList (List.replicate 31 '0' ++ [Nat.digitChar n]), by
    revert n
    decide⟩

def sampleTime : Datetime := ⟨⟨2025, 6, 1, 0, 0, 0, 0⟩, by decide⟩

def sampleConfig : MailboxConfig := ⟨30000, 3, 0⟩

def sampleItem : MailboxEnvelope where
  messageId := sampleId 0
  kind := "work_item"
  sender := ⟨"leader", "main"⟩
  createdAt := sampleTime
  attempt := 1
  correlationId := none
  payload := []
  payloadRef := none
  claimId := none
  claimedAt := none
  claimLeaseMs := none
  lastHeartbeatAt := none
  claimerIdentity := none
  currentRunId := none
  retryMaxAttempts := none
  retryReason := none
  nextRetryAfter := none
  terminalState := none
  terminalReason := none
  completedAt := none
  schemaVersion := 1

/-- The item as its first claimer holds it. -/
def sampleClaim : MailboxEnvelope :=
  sampleItem.withClaim (sampleId 1).text "a" 30000 sampleTime

/-- The item is claimed, requeued when its lease ends, and claimed by
another. -/
def reclaimedCalls : List MailboxCall :=
  [.publish sampleItem (sampleId 2),
    .claimNext "a" none sampleTime (sampleId 1),
    .failOrRetry sampleClaim "lease expired" none sampleTime sampleTime
      (sampleId 3),
    .claimNext "b" none sampleTime (sampleId 4)]

/-- The first claimer wakes up: its update is written into the record of
the second one. -/
theorem stale_update_unfenced : ¬ ∀ calls s call s',
    (fileBackedSystem sampleConfig).Takes .init calls s call s' →
      Fenced FileBacked.claimName sampleConfig FileBacked.store s call := by
  intro hall
  have htest : ((fileBackedSystem sampleConfig).run .init
      reclaimedCalls).any (fun s =>
        !s.claimed.contains (FileBacked.claimName (sampleId 0)
          (sampleId 1).text)
        && ((FileBacked.store.run sampleConfig
          (.updateClaim sampleClaim)).run s).1.isOk) = true := by
    decide +kernel
  obtain ⟨s, hs, htest⟩ := (Option.any_eq_true ..).1 htest
  obtain ⟨hgone, hok⟩ := (Bool.and_eq_true ..).mp htest
  have hfenced := hall (reclaimedCalls ++ [.updateClaim sampleClaim]) s
    (.updateClaim sampleClaim) _ ⟨reclaimedCalls, [], rfl, hs, rfl⟩
  have hraises := (hfenced (sampleId 0) (some (sampleId 1).text) rfl).2
    fun c hc => by
      cases hc
      exact (Bool.not_eq_true' _).mp hgone
  rw [hraises] at hok
  cases hok

end WeaveRuntime.Teammates
