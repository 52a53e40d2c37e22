/-
Which commands the ingress of a session has a result for.

An admission kind that is none is turned into a rejection, but a role
that is none raises, an admission with a transcript entry raises where
the entry is not written, and a replay without outputs raises too.
`Processable` names these cases and the payloads that cannot be copied.
There are no others (`process_returns_iff`): each builder has one lemma
that says when it returns, and one for when it returns nothing.

A command is off the queue before it is processed, so over a run every
command that was taken has a result exactly if each was processable when
it was taken.
-/
import WeaveRuntime.Sessions.Ingress

namespace WeaveRuntime.Sessions

open Jobs (Fields getField mem_updateFields)
open Lib
open Messages
open Python

-- =========== condition

/-- The metadata of an event under the texts of its keys. -/
def eventMetadata (event : InboundEvent) : Fields :=
  copyMapping (.dict event.metadata)

def admission (event : InboundEvent) : IngressAdmissionKind :=
  (resolveAdmissionKind event.eventType (eventMetadata event)).1

def RoleUnknown (value : PyVal) : Prop :=
  ∃ text, value = .str text ∧ roleOf text = none

def EntryBuilt (event : InboundEvent) : Prop :=
  (admission event ≠ .replayOnly ∧ admission event ≠ .reject)
    ∧ (wantsTranscriptEntry (admission event) (eventMetadata event) = true
      ∨ event.content ≠ "" ∧ admission event ≠ .localOnly)

def explicitOutputs (metadata : Fields) : Option (List Fields) :=
  (listOf (getField metadata "replay_outputs")).map
    (·.filterMap mappingOf)

/-- Some output is given: a mapping in the list, or the text where there is
no list. -/
def OutputGiven (metadata : Fields) : Prop :=
  match explicitOutputs metadata with
  | some raws => raws ≠ []
  | none => (replayText metadata).isSome

/-- The outputs have known roles: those of the list, or that of the text
where there is no list. -/
def OutputRoles (metadata : Fields) : Prop :=
  match explicitOutputs metadata with
  | some raws => ∀ raw ∈ raws, ¬RoleUnknown (getField raw "role")
  | none => (replayText metadata).isSome →
      ¬RoleUnknown (getField metadata "replay_role")

def PayloadCopies (copyable : String → Bool) : PyVal → Prop
  | .dict fields => ∀ entry ∈ fields, copies copyable entry.2 = true
  | value => copies copyable value = true

/-- The events that have a result. -/
structure Processable (env : IngressEnvironment) (event : InboundEvent) :
    Prop where
  /-- what is admitted or transcribed has its entry -/
  entry : admission event = .admitTurn ∨ admission event = .transcriptOnly →
    EntryBuilt event
  /-- the role of a message is one -/
  role : EntryBuilt event →
    ¬RoleUnknown (getField (eventMetadata event) "role")
  /-- what is only replayed has an output -/
  replayed : admission event = .replayOnly →
    OutputGiven (eventMetadata event)
  /-- the roles of the outputs are some -/
  outputRoles : OutputRoles (eventMetadata event)
  /-- the payloads of the receipts are copied -/
  payloads : ∀ raw ∈ rawReceipts (eventMetadata event),
    PayloadCopies env.copyable (getField raw "payload")

-- =============== roles

theorem messageRole_returns {text : String} :
    (∃ role, messageRole text = .ok role) ↔ roleOf text ≠ none := by
  unfold messageRole
  simp only [orRaise_eq_ok]
  exact Option.ne_none_iff_exists'.symm

variable {env : IngressEnvironment} {event : InboundEvent}
  {messages : List RuntimeMessage} {metadata : Fields} {value : PyVal}

theorem coerceMessageRole_returns {fallback : MessageRole} :
    (∃ role, coerceMessageRole value fallback = .ok role)
      ↔ ¬RoleUnknown value := by
  cases value with
  | str text =>
    refine messageRole_returns.trans ⟨?_, ?_⟩
    · rintro hknown ⟨text', heq, hnone⟩
      cases heq
      exact hknown hnone
    · exact fun hknown hnone => hknown ⟨text, rfl, hnone⟩
  | _ =>
    refine iff_of_true ⟨fallback, rfl⟩ ?_
    rintro ⟨text, heq, -⟩
    cases heq

theorem resolveMessageRole_returns (eventType : InboundEventType) :
    (∃ role, resolveMessageRole eventType metadata = .ok role)
      ↔ ¬RoleUnknown (getField metadata "role") := by
  unfold resolveMessageRole
  split
  · next hnone =>
    rw [hnone]
    refine iff_of_true ⟨_, rfl⟩ ?_
    rintro ⟨text, heq, -⟩
    cases heq
  · exact coerceMessageRole_returns

-- ============ messages

theorem buildNormalizedMessages_of_not (h : ¬EntryBuilt event) :
    buildNormalizedMessages env event (eventMetadata event)
      (admission event) = .ok [] := by
  unfold buildNormalizedMessages
  split
  · rfl
  · next hkind =>
    split
    · rfl
    · next hcontent =>
      split
      · rfl
      · next hlocal =>
        refine absurd ⟨not_or.1 hkind, ?_⟩ h
        by_cases hwants : wantsTranscriptEntry (admission event)
            (eventMetadata event) = true
        · exact Or.inl hwants
        · rw [Bool.not_eq_true] at hwants
          rw [hwants] at hcontent hlocal
          refine Or.inr ⟨fun hempty => hcontent ⟨hempty, rfl⟩,
            fun heq => hlocal ⟨heq, rfl⟩⟩

theorem buildNormalizedMessages_of (h : EntryBuilt event) :
    buildNormalizedMessages env event (eventMetadata event)
        (admission event) = .ok messages
      ↔ ∃ role, resolveMessageRole event.eventType (eventMetadata event)
          = .ok role
        ∧ messages = [{
            messageId := env.freshId 0
            role := role
            content := textBlocks event.content
            createdAt := env.now
            attachments := coerceAttachments (eventMetadata event)
            metadata := normalizedMessageMetadata (eventMetadata event)
              event.eventType }] := by
  obtain ⟨⟨hreplay, hreject⟩, hwants⟩ := h
  have hcontent : ¬(event.content = "" ∧ !wantsTranscriptEntry
      (admission event) (eventMetadata event)) := by
    rintro ⟨hempty, hnot⟩
    obtain hwants | ⟨hcontent, -⟩ := hwants
    · rw [hwants] at hnot
      cases hnot
    · exact hcontent hempty
  have hlocal : ¬(admission event = .localOnly ∧ !wantsTranscriptEntry
      (admission event) (eventMetadata event)) := by
    rintro ⟨hkind, hnot⟩
    obtain hwants | ⟨-, hlocal⟩ := hwants
    · rw [hwants] at hnot
      cases hnot
    · exact hlocal hkind
  unfold buildNormalizedMessages
  rw [if_neg (not_or.2 ⟨hreplay, hreject⟩), if_neg hcontent, if_neg hlocal,
    bind_eq_ok]
  refine exists_congr fun role => and_congr_right fun _ => ?_
  exact ⟨fun heq => (Except.ok.inj heq).symm, fun heq => heq ▸ rfl⟩

theorem buildNormalizedMessages_returns :
    (∃ messages, buildNormalizedMessages env event (eventMetadata event)
        (admission event) = .ok messages)
      ↔ (EntryBuilt event →
        ¬RoleUnknown (getField (eventMetadata event) "role")) := by
  by_cases h : EntryBuilt event
  · rw [← resolveMessageRole_returns event.eventType]
    constructor
    · rintro ⟨messages, hmessages⟩ -
      obtain ⟨role, hrole, -⟩ := (buildNormalizedMessages_of h).1 hmessages
      exact ⟨role, hrole⟩
    · intro hknown
      obtain ⟨role, hrole⟩ := hknown h
      exact ⟨_, (buildNormalizedMessages_of h).2 ⟨role, hrole, rfl⟩⟩
  · exact iff_of_true ⟨[], buildNormalizedMessages_of_not h⟩ fun hbuilt =>
      absurd hbuilt h

theorem messages_ne_nil
    (h : buildNormalizedMessages env event (eventMetadata event)
      (admission event) = .ok messages) :
    messages ≠ [] ↔ EntryBuilt event := by
  by_cases hbuilt : EntryBuilt event
  · obtain ⟨role, -, rfl⟩ := (buildNormalizedMessages_of hbuilt).1 h
    exact iff_of_true (List.cons_ne_nil _ _) hbuilt
  · cases (buildNormalizedMessages_of_not hbuilt).symm.trans h
    exact iff_of_false (fun hne => hne rfl) hbuilt

-- ============= outputs

theorem explicitOutput_returns {eventType : InboundEventType}
    {entry : Fields × Nat} :
    (∃ output, explicitOutput env eventType entry = .ok output)
      ↔ ¬RoleUnknown (getField entry.1 "role") := by
  rw [← coerceMessageRole_returns]
  unfold explicitOutput
  constructor
  · rintro ⟨output, houtput⟩
    obtain ⟨role, hrole, -⟩ := bind_eq_ok.1 houtput
    exact ⟨role, hrole⟩
  · rintro ⟨role, hrole⟩
    exact ⟨_, bind_eq_ok.2 ⟨role, hrole, rfl⟩⟩

theorem textOutput_returns (env : IngressEnvironment)
    (eventType : InboundEventType) (metadata : Fields) (text : String) :
    (∃ output, textOutput env eventType metadata text = .ok output)
      ↔ ¬RoleUnknown (getField metadata "replay_role") := by
  rw [← coerceMessageRole_returns]
  unfold textOutput
  constructor
  · rintro ⟨output, houtput⟩
    obtain ⟨role, hrole, -⟩ := bind_eq_ok.1 houtput
    exact ⟨role, hrole⟩
  · rintro ⟨role, hrole⟩
    exact ⟨_, bind_eq_ok.2 ⟨role, hrole, rfl⟩⟩

theorem buildReplayOutputs_returns {kind : IngressAdmissionKind} :
    (∃ outputs, buildReplayOutputs env event metadata kind = .ok outputs)
      ↔ OutputRoles metadata := by
  unfold buildReplayOutputs OutputRoles explicitOutputs
  cases listOf (getField metadata "replay_outputs") with
  | some raws =>
    dsimp only [Option.map_some]
    rw [exists_mapM_iff]
    simp only [explicitOutput_returns]
    constructor
    · intro hall raw hraw
      rw [← List.zipIdx_map_fst 0 (raws.filterMap mappingOf)] at hraw
      obtain ⟨entry, hentry, rfl⟩ := List.mem_map.1 hraw
      exact hall entry hentry
    · intro hall entry hentry
      exact hall _ (List.fst_mem_of_mem_zipIdx hentry)
  | none =>
    cases replayText metadata with
    | some text =>
      have hrole := textOutput_returns env event.eventType metadata text
      constructor
      · rintro ⟨outputs, houtputs⟩ -
        obtain ⟨output, houtput, -⟩ := bind_eq_ok.1 houtputs
        exact hrole.1 ⟨output, houtput⟩
      · intro hknown
        obtain ⟨output, houtput⟩ := hrole.2 (hknown rfl)
        exact ⟨_, bind_eq_ok.2 ⟨output, houtput, rfl⟩⟩
    | none =>
      refine iff_of_true ⟨_, rfl⟩ fun hsome => ?_
      cases hsome

theorem outputs_ne_nil {outputs : List IngressReplayOutput}
    (h : buildReplayOutputs env event metadata .replayOnly = .ok outputs) :
    outputs ≠ [] ↔ OutputGiven metadata := by
  unfold buildReplayOutputs at h
  unfold OutputGiven explicitOutputs
  cases hlist : listOf (getField metadata "replay_outputs") with
  | some raws =>
    rw [hlist] at h
    have hlength := length_of_mapM h
    rw [List.length_zipIdx] at hlength
    dsimp only [Option.map_some]
    rw [← List.length_pos_iff, hlength, List.length_pos_iff]
  | none =>
    cases htext : replayText metadata with
    | some text =>
      rw [hlist, htext] at h
      obtain ⟨output, -, hreturn⟩ := bind_eq_ok.1 h
      cases hreturn
      exact iff_of_true (List.cons_ne_nil _ _) rfl
    | none =>
      rw [hlist, htext] at h
      cases h
      refine iff_of_false (fun hne => hne rfl) fun hsome => ?_
      cases hsome

-- ============ receipts

theorem deepcopy_returns {copied : PyVal} :
    deepcopy env value = .ok copied
      ↔ copies env.copyable value = true ∧ copied = value := by
  unfold deepcopy
  split
  · next h =>
    refine ⟨fun heq => ⟨h, (Except.ok.inj heq).symm⟩, ?_⟩
    rintro ⟨-, rfl⟩
    rfl
  · next h =>
    refine iff_of_false (fun heq => ?_) fun hand => h hand.1
    cases heq

theorem copiesFields_of_str {copyable : String → Bool} {fields : Fields}
    (h : ∀ entry ∈ fields, (∃ name, entry.1 = .str name)
      ∧ copies copyable entry.2 = true) :
    copiesFields copyable fields = true := by
  induction fields with
  | nil => rfl
  | cons entry fields ih =>
    obtain ⟨key, value⟩ := entry
    obtain ⟨⟨name, rfl⟩, hvalue⟩ := h _ List.mem_cons_self
    unfold copiesFields
    rw [hvalue, ih fun other hmem => h other (List.mem_cons_of_mem _ hmem)]
    rfl

theorem copies_keyed {copyable : String → Bool} {fields : Fields}
    (h : ∀ entry ∈ fields, copies copyable entry.2 = true) :
    copies copyable (.dict (keyed fields)) = true := by
  unfold copies
  refine copiesFields_of_str fun entry hentry => ?_
  obtain hnil | hmem := mem_updateFields hentry
  · cases hnil
  · obtain ⟨source, hsource, rfl⟩ := List.mem_map.1 hmem
    exact ⟨⟨_, rfl⟩, h source hsource⟩

theorem copies_of_copyReceiptPayload {payload : PyVal}
    (h : copyReceiptPayload env value = .ok payload) :
    PayloadCopies env.copyable value
      ∧ copies env.copyable payload = true := by
  unfold copyReceiptPayload at h
  split at h
  · next fields =>
    split at h
    · next hall =>
      cases h
      have hvalues := List.all_eq_true.1 hall
      exact ⟨hvalues, copies_keyed hvalues⟩
    · cases h
  · next hvalue =>
    obtain ⟨hcopies, rfl⟩ := deepcopy_returns.1 h
    refine ⟨?_, hcopies⟩
    unfold PayloadCopies
    split
    · next fields => exact absurd rfl (hvalue fields)
    · exact hcopies

theorem copyReceiptPayload_of_copies (h : PayloadCopies env.copyable value) :
    ∃ payload, copyReceiptPayload env value = .ok payload := by
  unfold copyReceiptPayload
  unfold PayloadCopies at h
  split
  · next fields => exact ⟨_, if_pos (List.all_eq_true.2 h)⟩
  · next hvalue =>
    split at h
    · next fields => exact absurd rfl (hvalue fields)
    · exact ⟨_, deepcopy_returns.2 ⟨h, rfl⟩⟩

theorem completionReceipt_of {receiptId kind : String} {payload : PyVal}
    (hid : pyStrip receiptId ≠ "") (hkind : pyStrip kind ≠ "")
    (hcopies : copies env.copyable payload = true) :
    completionReceipt env receiptId kind payload
      = .ok ⟨pyStrip receiptId, pyStrip kind, payload⟩ := by
  unfold completionReceipt
  rw [raiseIf_of_not hid, ok_bind, raiseIf_of_not hkind, ok_bind,
    deepcopy_returns.2 ⟨hcopies, rfl⟩]
  rfl

theorem pyStrip_strippedField (fields : Fields) (key : String) :
    pyStrip (strippedField fields key) = strippedField fields key :=
  pyStrip_pyStrip _

theorem receiptOf_returns {raw : Fields} (hraw : raw ∈ rawReceipts metadata) :
    (∃ receipt, receiptOf env raw = .ok receipt)
      ↔ PayloadCopies env.copyable (getField raw "payload") := by
  have htest := (List.mem_filter.1 hraw).2
  rw [Bool.and_eq_true, decide_eq_true_eq, decide_eq_true_eq] at htest
  unfold receiptOf
  constructor
  · rintro ⟨receipt, hreceipt⟩
    obtain ⟨payload, hpayload, -⟩ := bind_eq_ok.1 hreceipt
    exact (copies_of_copyReceiptPayload hpayload).1
  · intro hcopies
    obtain ⟨payload, hpayload⟩ := copyReceiptPayload_of_copies hcopies
    have hagain := (copies_of_copyReceiptPayload hpayload).2
    rw [hpayload, ok_bind]
    refine ⟨_, completionReceipt_of ?_ ?_ hagain⟩
    · rw [pyStrip_strippedField]
      exact htest.1
    · rw [pyStrip_strippedField]
      exact htest.2

theorem buildCompletionReceipts_returns :
    (∃ receipts, buildCompletionReceipts env metadata = .ok receipts)
      ↔ ∀ raw ∈ rawReceipts metadata,
        PayloadCopies env.copyable (getField raw "payload") := by
  unfold buildCompletionReceipts
  rw [exists_mapM_iff]
  exact forall_congr' fun raw => forall_congr' fun hraw =>
    receiptOf_returns hraw

-- ========== processing

theorem make_returns {result : SessionIngressResult} :
    (∃ made, result.make = .ok made)
      ↔ ¬(result.kind = .admitTurn ∧ result.normalizedMessages.isEmpty)
        ∧ ¬(result.kind = .transcriptOnly
          ∧ result.normalizedMessages.isEmpty)
        ∧ ¬(result.kind = .replayOnly ∧ result.replayOutputs.isEmpty)
        ∧ ¬(result.kind ≠ .admitTurn ∧ !result.promptUpdates.isEmpty)
        ∧ ¬(result.kind ∈ [.replayOnly, .reject]
          ∧ !result.normalizedMessages.isEmpty) := by
  have hmake : (∃ made, result.make = .ok made)
      ↔ ∃ checked, result.validate = .ok checked := by
    unfold SessionIngressResult.make
    constructor
    · rintro ⟨made, hmade⟩
      obtain ⟨checked, hchecked, -⟩ := bind_eq_ok.1 hmade
      exact ⟨checked, hchecked⟩
    · rintro ⟨checked, hchecked⟩
      exact ⟨result, bind_eq_ok.2 ⟨checked, hchecked, rfl⟩⟩
  rw [hmake]
  unfold SessionIngressResult.validate
  simp only [bind_eq_ok, raiseIf_eq_ok, exists_const]

theorem make_resultOf_returns {kind : IngressAdmissionKind} {reason : String}
    {outputs : List IngressReplayOutput}
    {receipts : List IngressCompletionReceipt}
    {promptUpdates privateUpdates : Fields} :
    (∃ result, (resultOf kind reason messages outputs receipts promptUpdates
        privateUpdates).make = .ok result)
      ↔ (kind = .admitTurn ∨ kind = .transcriptOnly → messages ≠ [])
        ∧ (kind = .replayOnly → outputs ≠ []) := by
  rw [make_returns]
  cases kind with
  | _ => simp [resultOf]

theorem process_returns_iff :
    (∃ result, process env event = .ok result) ↔ Processable env event := by
  have hsplit : (∃ result, process env event = .ok result)
      ↔ ∃ messages outputs receipts,
        buildNormalizedMessages env event (eventMetadata event)
            (admission event) = .ok messages
        ∧ buildReplayOutputs env event (eventMetadata event)
            (admission event) = .ok outputs
        ∧ buildCompletionReceipts env (eventMetadata event) = .ok receipts
        ∧ (admission event = .admitTurn ∨ admission event = .transcriptOnly →
          messages ≠ [])
        ∧ (admission event = .replayOnly → outputs ≠ []) := by
    unfold process
    dsimp only
    constructor
    · rintro ⟨result, hresult⟩
      obtain ⟨messages, hmessages, hresult⟩ := bind_eq_ok.1 hresult
      obtain ⟨outputs, houtputs, hresult⟩ := bind_eq_ok.1 hresult
      obtain ⟨receipts, hreceipts, hresult⟩ := bind_eq_ok.1 hresult
      exact ⟨messages, outputs, receipts, hmessages, houtputs, hreceipts,
        make_resultOf_returns.1 ⟨result, hresult⟩⟩
    · rintro ⟨messages, outputs, receipts, hmessages, houtputs, hreceipts,
        hrules⟩
      obtain ⟨result, hresult⟩ := make_resultOf_returns.2 hrules
      exact ⟨result, bind_eq_ok.2 ⟨messages, hmessages, bind_eq_ok.2
        ⟨outputs, houtputs, bind_eq_ok.2 ⟨receipts, hreceipts, hresult⟩⟩⟩⟩
  rw [hsplit]
  constructor
  · rintro ⟨messages, outputs, receipts, hmessages, houtputs, hreceipts,
      hentry, hreplayed⟩
    refine ⟨fun hkind => (messages_ne_nil hmessages).1 (hentry hkind),
      buildNormalizedMessages_returns.1 ⟨messages, hmessages⟩, ?_,
      buildReplayOutputs_returns.1 ⟨outputs, houtputs⟩,
      buildCompletionReceipts_returns.1 ⟨receipts, hreceipts⟩⟩
    intro hkind
    rw [hkind] at houtputs
    exact (outputs_ne_nil houtputs).1 (hreplayed hkind)
  · intro h
    obtain ⟨messages, hmessages⟩ := buildNormalizedMessages_returns.2 h.role
    obtain ⟨outputs, houtputs⟩ := buildReplayOutputs_returns.2 h.outputRoles
    obtain ⟨receipts, hreceipts⟩ :=
      buildCompletionReceipts_returns.2 h.payloads
    refine ⟨messages, outputs, receipts, hmessages, houtputs, hreceipts,
      fun hkind => (messages_ne_nil hmessages).2 (h.entry hkind), ?_⟩
    intro hkind
    rw [hkind] at houtputs
    exact (outputs_ne_nil houtputs).2 (h.replayed hkind)

-- ================ runs

def NoneLost {σ : Type} (s : CommandQueue σ) : Prop :=
  (s.results.map (·.1) ++ s.queued).Perm s.accepted

def TakesProcessable {σ : Type} (environment : σ → IngressEnvironment)
    (s : CommandQueue σ) : QueueAction σ → Prop
  | .enqueue _ => True
  | .drain _ => ∀ command, s.queued.head? = some command →
      Processable (environment s.session) command.event

section Runs

variable {σ : Type} {environment : σ → IngressEnvironment}

theorem NoneLost.enqueue {s : CommandQueue σ} (h : NoneLost s)
    (command : SessionCommand) :
    NoneLost { s with
      queued := (s.queued ++ [command]).mergeSort SessionCommand.before
      accepted := s.accepted ++ [command] } := by
  have hsorted := List.mergeSort_perm (s.queued ++ [command])
    SessionCommand.before
  refine (hsorted.append_left _).trans ?_
  rw [← List.append_assoc]
  exact h.append_right [command]

theorem noneLost_drainOne {s t : CommandQueue σ}
    {follow : σ → SessionIngressResult → σ} (h : NoneLost s)
    (hstep : drainOne environment s follow = some t) :
    NoneLost t ↔ TakesProcessable environment s (.drain follow) := by
  unfold drainOne at hstep
  split at hstep
  · cases hstep
  · next command rest hqueued =>
    have hhead : TakesProcessable environment s (.drain follow)
        ↔ ∃ result, process (environment s.session) command.event
          = .ok result := by
      rw [process_returns_iff]
      unfold TakesProcessable
      rw [hqueued]
      exact ⟨fun hall => hall command rfl,
        fun hone other heq => Option.some.inj heq ▸ hone⟩
    unfold NoneLost at h
    rw [hqueued] at h
    rw [hhead]
    split at hstep
    · next result hresult =>
      cases hstep
      refine iff_of_true ?_ ⟨result, hresult⟩
      show (List.map (·.1) (s.results ++ [(command, result)])
        ++ rest).Perm s.accepted
      rw [List.map_append, List.append_assoc]
      exact h
    · next error herror =>
      cases hstep
      refine iff_of_false (fun hkept => ?_) ?_
      · -- one command fewer
        have hrest : (s.results.map (·.1) ++ rest).Perm s.accepted := hkept
        have hlength := hrest.length_eq.trans h.length_eq.symm
        rw [List.length_append, List.length_append, List.length_cons]
          at hlength
        omega
      · rintro ⟨result, hresult⟩
        cases herror.symm.trans hresult

/-- **No command is lost.** An event has a result exactly if it is
processable, and in the runs of a session every accepted command is queued
or has a result exactly if each that is taken from the queue is. -/
theorem ingress_loses_none_iff (session : σ) (as : List (QueueAction σ)) :
    (∀ env event, (∃ result, process env event = .ok result)
      ↔ Processable env event)
    ∧ ((∀ t, (commandQueue environment).Visits ⟨session, [], [], []⟩ as t →
        NoneLost t)
      ↔ ∀ t a t', (commandQueue environment).Takes ⟨session, [], [], []⟩ as
          t a t' → TakesProcessable environment t a) := by
  refine ⟨fun env event => process_returns_iff, ?_⟩
  refine System.visits_iff_takes (I := fun _ => True)
    (fun _ _ _ _ _ => trivial) ?_ trivial (List.Perm.refl [])
  intro s a t _ h hstep
  cases a with
  | enqueue command =>
    cases hstep
    exact iff_of_true (h.enqueue command) trivial
  | drain follow => exact noneLost_drainOne h hstep

end Runs

-- ======= lost commands

/-- Nothing by default, and nothing that cannot be copied. -/
def plainEnvironment : IngressEnvironment where
  servicePromptDefaults := .none
  sessionPromptDefaults := .none
  servicePrivateDefaults := .none
  sessionPrivateDefaults := .none
  freshId := fun n => "id-" ++ toString n
  now := ⟨⟨2025, 1, 1, 0, 0, 0, 0⟩, inRange_newYear⟩
  copyable := fun _ => true

/-- An empty prompt that is not to be shown in the transcript. -/
def hiddenPrompt : InboundEvent :=
  ⟨.userPrompt, "", [(.str "transcript_visible", .bool false)]⟩

def narratorPrompt : InboundEvent :=
  ⟨.userPrompt, "hello", [(.str "role", .str "narrator")]⟩

def commandFor (event : InboundEvent) : SessionCommand := ⟨"c1", 10, 0, event⟩

/-- Both raise, and the command is neither queued nor has a result. -/
theorem commands_lost :
    (process plainEnvironment hiddenPrompt = .error (.valueError
        "admit_turn ingress results must include normalized messages"))
      ∧ (process plainEnvironment narratorPrompt = .error (.valueError
        "'narrator' is not a valid MessageRole"))
      ∧ ∃ t, (commandQueue fun _ : Unit => plainEnvironment).run
            ⟨(), [], [], []⟩
            [.enqueue (commandFor hiddenPrompt), .drain fun s _ => s]
          = some t
        ∧ ¬NoneLost t := by
  refine ⟨rfl, rfl, ⟨(), [], [commandFor hiddenPrompt], []⟩, ?_, ?_⟩
  · have henqueue : (commandQueue fun _ : Unit => plainEnvironment).step
        ⟨(), [], [], []⟩ (.enqueue (commandFor hiddenPrompt))
        = some ⟨(), [commandFor hiddenPrompt], [commandFor hiddenPrompt],
          []⟩ :=
      congrArg (fun queued => some (CommandQueue.mk () queued
        [commandFor hiddenPrompt] [])) (List.mergeSort_singleton _)
    rw [System.run_cons_of_step henqueue]
    rfl
  · exact fun hkept => absurd hkept.length_eq (by decide)

/-- A prompt with nothing but a text. -/
def helloPrompt : InboundEvent := ⟨.userPrompt, "hello", []⟩

/-- A plain prompt is processable. -/
example : Processable plainEnvironment helloPrompt :=
  process_returns_iff.1 ⟨_, rfl⟩

end WeaveRuntime.Sessions
