/-
The envelope of a work item, and what claiming, settling and requeueing it
write into it.

The team and the teammate an envelope is for select its mailbox; the model
is about one mailbox, so they are left out. Message ids and claim ids are
`uuid4().hex` wherever the runtime makes one; the claim id of an envelope
is whatever its holder put there.
-/
import WeaveRuntime.Jobs.Model

namespace WeaveRuntime.Teammates

open Python
open Jobs (Fields)

instance : DecidableEq UuidHex := fun a b =>
  decidable_of_iff (a.text = b.text) (by
    cases a
    cases b
    simp)

def schemaVersion : Int := 1

inductive MailboxTerminalState where
  | done | failed | retry
  deriving DecidableEq, Repr

structure MailboxSender where
  type : String
  id : String
  deriving DecidableEq, Repr

structure MailboxEnvelope where
  messageId : UuidHex
  kind : String
  sender : MailboxSender
  createdAt : Datetime
  attempt : Int
  correlationId : Option String
  payload : Fields
  payloadRef : Option String
  claimId : Option String
  claimedAt : Option Datetime
  claimLeaseMs : Option Int
  lastHeartbeatAt : Option Datetime
  claimerIdentity : Option String
  currentRunId : Option String
  retryMaxAttempts : Option Int
  retryReason : Option String
  nextRetryAfter : Option Datetime
  terminalState : Option MailboxTerminalState
  terminalReason : Option String
  completedAt : Option Datetime
  schemaVersion : Int

namespace MailboxEnvelope

def withClaim (envelope : MailboxEnvelope) (claimId claimerIdentity : String)
    (claimLeaseMs : Int) (claimedAt : Datetime) : MailboxEnvelope :=
  { envelope with
    claimId := some claimId
    claimedAt := some claimedAt
    claimLeaseMs := some claimLeaseMs
    lastHeartbeatAt := some claimedAt
    claimerIdentity := some claimerIdentity
    terminalState := none
    terminalReason := none
    completedAt := none }

def withHeartbeat (envelope : MailboxEnvelope) (timestamp : Datetime) :
    MailboxEnvelope :=
  { envelope with lastHeartbeatAt := some timestamp }

def withRunLinkage (envelope : MailboxEnvelope) (runId : String) :
    MailboxEnvelope :=
  { envelope with currentRunId := some runId }

def withTerminal (envelope : MailboxEnvelope) (state : MailboxTerminalState)
    (reason : Option String) (completedAt : Datetime) : MailboxEnvelope :=
  { envelope with
    terminalState := some state
    terminalReason := reason
    completedAt := some completedAt }

def forRetry (envelope : MailboxEnvelope) (reason : String)
    (nextRetryAfter : Option Datetime) : MailboxEnvelope :=
  { envelope with
    attempt := envelope.attempt + 1
    claimId := none
    claimedAt := none
    lastHeartbeatAt := none
    claimerIdentity := none
    currentRunId := none
    retryReason := some reason
    nextRetryAfter := nextRetryAfter
    terminalState := none
    terminalReason := none
    completedAt := none }

def retryReady (envelope : MailboxEnvelope) (now : Datetime) : Bool :=
  match envelope.nextRetryAfter with
  | none => true
  | some at' => at'.stamp ≤ now.stamp

private def textOr (text fallback : String) : String :=
  if text = "" then fallback else text

/-- `from_dict` of the document `to_dict` wrote: what is falsy or blank
there is read as its default. The payload is JSON data. -/
def reload (envelope : MailboxEnvelope) : MailboxEnvelope :=
  { envelope with
    kind := textOr envelope.kind "work_item"
    sender := ⟨textOr envelope.sender.type "leader",
      textOr envelope.sender.id "main"⟩
    attempt := if envelope.attempt = 0 then 1 else envelope.attempt
    correlationId := coerceOptional envelope.correlationId
    payloadRef := coerceOptional envelope.payloadRef
    claimId := coerceOptional envelope.claimId
    claimerIdentity := coerceOptional envelope.claimerIdentity
    currentRunId := coerceOptional envelope.currentRunId
    retryReason := coerceOptional envelope.retryReason
    terminalReason := coerceOptional envelope.terminalReason
    schemaVersion := if envelope.schemaVersion = 0 then Teammates.schemaVersion
      else envelope.schemaVersion }

@[simp] theorem messageId_reload (e : MailboxEnvelope) :
    e.reload.messageId = e.messageId := rfl

@[simp] theorem claimId_reload (e : MailboxEnvelope) :
    e.reload.claimId = coerceOptional e.claimId := rfl

theorem attempt_reload {e : MailboxEnvelope} (h : e.attempt ≠ 0) :
    e.reload.attempt = e.attempt := if_neg h

end MailboxEnvelope

end WeaveRuntime.Teammates
