/-
The mailbox of a teammate, in memory and on disk.

Both keep five buckets (`MailboxState`): the inbox by message, the others
by message and claim. In memory the keys are those ids; on disk they are
file names made from them, and a document is kept as the envelope it was
written from.

The two look a claim up differently. `InMemory.claimKey` is the exact key;
`FileBacked.claimPath` takes the exact file if it is there, and else the
first file of the message, whatever its claim.

What a call takes from outside is an argument of it: the clock's readings,
`backoffEnd` for the clock plus the retry backoff, and the fresh
`uuid4().hex` texts.
-/
import Mathlib.Data.List.Sort
import WeaveRuntime.Lib.Dict
import WeaveRuntime.Lib.Method
import WeaveRuntime.Python.Fnmatch
import WeaveRuntime.Teammates.Envelope

namespace WeaveRuntime.Teammates

open Lib
open Python

-- ============== shared

/-- `FileExistsError` and `FileNotFoundError`, with the message they are
about. -/
inductive MailboxError where
  | fileExists (messageId : UuidHex)
  | fileNotFound (messageId : UuidHex)
  deriving DecidableEq

structure MailboxConfig where
  defaultClaimLeaseMs : Int
  defaultRetryMaxAttempts : Int
  retryBackoffMs : Int

structure MailboxState (ι κ : Type) where
  inbox : Dict ι MailboxEnvelope
  claimed : Dict κ MailboxEnvelope
  done : Dict κ MailboxEnvelope
  failed : Dict κ MailboxEnvelope
  retry : Dict κ MailboxEnvelope

def MailboxState.init {ι κ : Type} : MailboxState ι κ :=
  ⟨.empty, .empty, .empty, .empty, .empty⟩

def MailboxState.file {ι κ : Type} [DecidableEq κ] (s : MailboxState ι κ)
    (bucket : MailboxTerminalState) (key : κ) (envelope : MailboxEnvelope) :
    MailboxState ι κ :=
  match bucket with
  | .done => { s with done := s.done.insert key envelope }
  | .failed => { s with failed := s.failed.insert key envelope }
  | .retry => { s with retry := s.retry.insert key envelope }

/-- Take a claim away and put the envelope into a bucket. -/
def MailboxState.settle {ι κ : Type} [DecidableEq κ] (s : MailboxState ι κ)
    (bucket : MailboxTerminalState) (key : κ) (envelope : MailboxEnvelope) :
    MailboxState ι κ :=
  { s with claimed := s.claimed.erase key }.file bucket key envelope

@[simp] theorem MailboxState.inbox_settle {ι κ : Type} [DecidableEq κ]
    (s : MailboxState ι κ) (bucket : MailboxTerminalState) (key : κ)
    (envelope : MailboxEnvelope) :
    (s.settle bucket key envelope).inbox = s.inbox := by
  cases bucket with
  | _ => rfl

@[simp] theorem MailboxState.claimed_settle {ι κ : Type} [DecidableEq κ]
    (s : MailboxState ι κ) (bucket : MailboxTerminalState) (key : κ)
    (envelope : MailboxEnvelope) :
    (s.settle bucket key envelope).claimed = s.claimed.erase key := by
  cases bucket with
  | _ => rfl

def firstSet (first second : Option Int) (fallback : Int) : Int :=
  match first.filter (· ≠ 0), second.filter (· ≠ 0) with
  | some n, _ => n
  | none, some n => n
  | none, none => fallback

/-- The ceiling `fail_or_retry` compares the attempt with. -/
def MailboxConfig.ceiling (config : MailboxConfig)
    (retryMaxAttempts : Option Int) (envelope : MailboxEnvelope) : Int :=
  firstSet retryMaxAttempts envelope.retryMaxAttempts
    config.defaultRetryMaxAttempts

def MailboxConfig.lease (config : MailboxConfig) (claimLeaseMs : Option Int)
    (envelope : MailboxEnvelope) : Int :=
  firstSet claimLeaseMs envelope.claimLeaseMs config.defaultClaimLeaseMs

/-- `next_retry_after` of a requeued envelope. -/
def MailboxConfig.nextRetryAfter (config : MailboxConfig)
    (backoffEnd : Datetime) : Option Datetime :=
  if config.retryBackoffMs > 0 then some backoffEnd else none

/-- One call of a mailbox's methods. -/
inductive MailboxCall where
  | publish (envelope : MailboxEnvelope) (tempId : UuidHex)
  | claimNext (claimerIdentity : String) (claimLeaseMs : Option Int)
      (now : Datetime) (claimId : UuidHex)
  | updateClaim (envelope : MailboxEnvelope)
  | heartbeat (messageId : UuidHex) (claimId : String) (now : Datetime)
  | completeDone (envelope : MailboxEnvelope) (reason : Option String)
      (now : Datetime)
  | failOrRetry (envelope : MailboxEnvelope) (reason : String)
      (retryMaxAttempts : Option Int) (now backoffEnd : Datetime)
      (tempId : UuidHex)

/-- What a call returns: an envelope, none (`claim_next` found nothing), or
the archived envelope and the requeued one. -/
inductive MailboxReply where
  | envelope (envelope : MailboxEnvelope)
  | nothing
  | settled (archived : MailboxEnvelope) (requeued : Option MailboxEnvelope)

/-- The methods a mailbox implements, of the protocol
`TeammateMailboxStore`; the others are the same text in both. -/
structure TeammateMailboxStore (σ : Type) where
  publish : MailboxEnvelope → UuidHex →
    Method σ MailboxError MailboxEnvelope
  claimNext : MailboxConfig → String → Option Int → Datetime → UuidHex →
    Method σ MailboxError (Option MailboxEnvelope)
  readClaim : UuidHex → String → Method σ MailboxError MailboxEnvelope
  updateClaim : MailboxEnvelope → Method σ MailboxError MailboxEnvelope
  moveClaimToTerminal : MailboxEnvelope → MailboxTerminalState →
    Method σ MailboxError MailboxEnvelope

namespace TeammateMailboxStore

variable {σ : Type} (M : TeammateMailboxStore σ)

def heartbeat (messageId : UuidHex) (claimId : String) (now : Datetime) :
    Method σ MailboxError MailboxEnvelope := do
  let envelope ← M.readClaim messageId claimId
  M.updateClaim (envelope.withHeartbeat now)

def completeDone (envelope : MailboxEnvelope) (reason : Option String)
    (now : Datetime) : Method σ MailboxError MailboxEnvelope :=
  M.moveClaimToTerminal (envelope.withTerminal .done reason now) .done

def failOrRetry (config : MailboxConfig) (envelope : MailboxEnvelope)
    (reason : String) (retryMaxAttempts : Option Int)
    (now backoffEnd : Datetime) (tempId : UuidHex) :
    Method σ MailboxError (MailboxEnvelope × Option MailboxEnvelope) :=
  if envelope.attempt ≥ config.ceiling retryMaxAttempts envelope then do
    let terminal ← M.moveClaimToTerminal
      (envelope.withTerminal .failed (some reason) now) .failed
    pure (terminal, none)
  else do
    let archived ← M.moveClaimToTerminal
      (envelope.withTerminal .retry (some reason) now) .retry
    let requeued := archived.forRetry reason (config.nextRetryAfter backoffEnd)
    let _ ← M.publish requeued tempId
    pure (archived, some requeued)

def run (config : MailboxConfig) :
    MailboxCall → Method σ MailboxError MailboxReply
  | .publish envelope tempId => do
    let envelope ← M.publish envelope tempId
    pure (.envelope envelope)
  | .claimNext claimerIdentity claimLeaseMs now claimId => do
    let claimed ← M.claimNext config claimerIdentity claimLeaseMs now claimId
    pure ((claimed.map .envelope).getD .nothing)
  | .updateClaim envelope => do
    let envelope ← M.updateClaim envelope
    pure (.envelope envelope)
  | .heartbeat messageId claimId now => do
    let envelope ← M.heartbeat messageId claimId now
    pure (.envelope envelope)
  | .completeDone envelope reason now => do
    let envelope ← M.completeDone envelope reason now
    pure (.envelope envelope)
  | .failOrRetry envelope reason retryMaxAttempts now backoffEnd tempId => do
    let settled ← M.failOrRetry config envelope reason retryMaxAttempts now
      backoffEnd tempId
    pure (.settled settled.1 settled.2)

end TeammateMailboxStore

-- =========== in memory

abbrev InMemoryMailbox := MailboxState UuidHex (UuidHex × String)

namespace InMemory

abbrev Call (α : Type) := Method InMemoryMailbox MailboxError α

def claimKey (messageId : UuidHex) (claimId : Option String) :
    Except MailboxError (UuidHex × String) :=
  match claimId with
  | none => .error (.fileNotFound messageId)
  | some claimId => .ok (messageId, claimId)

def publish (envelope : MailboxEnvelope) : Call MailboxEnvelope := do
  let inbox ← Method.read (·.inbox)
  if inbox.contains envelope.messageId then
    Method.raise (.fileExists envelope.messageId)
  else do
    Method.write fun s =>
      { s with inbox := s.inbox.insert envelope.messageId envelope }
    pure envelope

/-- The first envelope of the inbox, by message id, that may be claimed. -/
def nextReady (inbox : Dict UuidHex MailboxEnvelope) (now : Datetime) :
    Option (UuidHex × MailboxEnvelope) :=
  ((inbox.keys.insertionSort fun a b => a.text ≤ b.text).filterMap
    fun messageId => (inbox.get? messageId).map fun envelope =>
      (messageId, envelope)).find? fun entry => entry.2.retryReady now

def claimNext (config : MailboxConfig) (claimerIdentity : String)
    (claimLeaseMs : Option Int) (now : Datetime) (claimId : UuidHex) :
    Call (Option MailboxEnvelope) := do
  let inbox ← Method.read (·.inbox)
  match nextReady inbox now with
  | none => pure none
  | some (messageId, envelope) => do
    let claimed := envelope.withClaim claimId.text claimerIdentity
      (config.lease claimLeaseMs envelope) now
    Method.write fun s =>
      { s with
        inbox := s.inbox.erase messageId
        claimed := s.claimed.insert (claimed.messageId, claimId.text)
          claimed }
    pure (some claimed)

def readClaim (messageId : UuidHex) (claimId : String) :
    Call MailboxEnvelope := do
  let claims ← Method.read (·.claimed)
  Method.lift (orRaise (claims.get? (messageId, claimId))
    (.fileNotFound messageId))

def heldKey (envelope : MailboxEnvelope) : Call (UuidHex × String) := do
  let key ← Method.lift (claimKey envelope.messageId envelope.claimId)
  let claims ← Method.read (·.claimed)
  if claims.contains key then pure key
  else Method.raise (.fileNotFound envelope.messageId)

def updateClaim (envelope : MailboxEnvelope) : Call MailboxEnvelope := do
  let key ← heldKey envelope
  Method.write fun s => { s with claimed := s.claimed.insert key envelope }
  pure envelope

def moveClaimToTerminal (envelope : MailboxEnvelope)
    (bucket : MailboxTerminalState) : Call MailboxEnvelope := do
  let key ← heldKey envelope
  Method.write fun s => s.settle bucket key envelope
  pure envelope

def store : TeammateMailboxStore InMemoryMailbox where
  publish envelope _ := publish envelope
  claimNext := claimNext
  readClaim := readClaim
  updateClaim := updateClaim
  moveClaimToTerminal := moveClaimToTerminal

end InMemory

-- ============= on disk

/-- `FileBackedTeammateMailbox`: the documents of its directories, by file
name. -/
abbrev FileBackedMailbox := MailboxState String String

namespace FileBacked

abbrev Call (α : Type) := Method FileBackedMailbox MailboxError α

def inboxName (messageId : UuidHex) : String := messageId.text ++ ".json"

def tempName (messageId tempId : UuidHex) : String :=
  ".tmp-" ++ messageId.text ++ "-" ++ tempId.text ++ ".json"

def claimName (messageId : UuidHex) (claimId : String) : String :=
  messageId.text ++ "--" ++ claimId ++ ".json"

def glob (directory : Dict String MailboxEnvelope) (pattern : String) :
    List String :=
  (directory.keys.filter fun name => fnmatch name pattern).insertionSort
    (· ≤ ·)

/-- The document is written beside its place first, and stays there when
the place is taken. -/
def publish (envelope : MailboxEnvelope) (tempId : UuidHex) :
    Call MailboxEnvelope := do
  let target := inboxName envelope.messageId
  let temp := tempName envelope.messageId tempId
  Method.write fun s => { s with inbox := s.inbox.insert temp envelope }
  let inbox ← Method.read (·.inbox)
  if inbox.contains target then
    Method.raise (.fileExists envelope.messageId)
  else do
    Method.write fun s =>
      { s with inbox := (s.inbox.erase temp).insert target envelope }
    pure envelope

/-- The first document of the inbox, by file name, that may be claimed. -/
def nextReady (inbox : Dict String MailboxEnvelope) (now : Datetime) :
    Option (String × MailboxEnvelope) :=
  ((glob inbox "*.json").filterMap fun source =>
    (inbox.get? source).map fun document => (source, document.reload)).find?
      fun entry => entry.2.retryReady now

def claimNext (config : MailboxConfig) (claimerIdentity : String)
    (claimLeaseMs : Option Int) (now : Datetime) (claimId : UuidHex) :
    Call (Option MailboxEnvelope) := do
  let inbox ← Method.read (·.inbox)
  match nextReady inbox now with
  | none => pure none
  | some (source, envelope) => do
    let destination := claimName envelope.messageId claimId.text
    Method.write fun s =>
      { s with
        inbox := s.inbox.erase source
        claimed := s.claimed.insert destination envelope }
    let claimed := envelope.withClaim claimId.text claimerIdentity
      (config.lease claimLeaseMs envelope) now
    Method.write fun s =>
      { s with claimed := s.claimed.insert destination claimed }
    pure (some claimed)

/-- `claim_path`: the file of the claim, or else the first one of the
message. -/
def claimPath (messageId : UuidHex) (claimId : Option String) :
    Call String := do
  let claims ← Method.read (·.claimed)
  let candidate := (claimId.filter (· ≠ "")).map (claimName messageId)
  match candidate.filter claims.contains with
  | some path => pure path
  | none =>
    Method.lift (orRaise (glob claims (messageId.text ++ "--*.json")).head?
      (.fileNotFound messageId))

def readClaim (messageId : UuidHex) (claimId : String) :
    Call MailboxEnvelope := do
  let path ← claimPath messageId (some claimId)
  let claims ← Method.read (·.claimed)
  let document ← Method.lift (orRaise (claims.get? path)
    (.fileNotFound messageId))
  pure document.reload

def updateClaim (envelope : MailboxEnvelope) : Call MailboxEnvelope := do
  let path ← claimPath envelope.messageId envelope.claimId
  Method.write fun s => { s with claimed := s.claimed.insert path envelope }
  pure envelope

/-- `_move_claim_to_terminal`: the file is overwritten, then moved under
its own name. -/
def moveClaimToTerminal (envelope : MailboxEnvelope)
    (bucket : MailboxTerminalState) : Call MailboxEnvelope := do
  let source ← claimPath envelope.messageId envelope.claimId
  Method.write fun s => { s with claimed := s.claimed.insert source envelope }
  Method.write fun s => s.settle bucket source envelope
  pure envelope

def store : TeammateMailboxStore FileBackedMailbox where
  publish := publish
  claimNext := claimNext
  readClaim := readClaim
  updateClaim := updateClaim
  moveClaimToTerminal := moveClaimToTerminal

end FileBacked

end WeaveRuntime.Teammates
