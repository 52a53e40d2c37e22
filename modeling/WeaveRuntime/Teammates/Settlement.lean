/-
What becomes of a work item that was claimed.

`callSystem` is one call of `process_next_work_item`: it starts, waits, and
ends, and while it waits the run may ask for permissions, a shutdown may be
asked for, and the heartbeat beats. A claim that was handed out is owed a
settlement: `Owed` is what is kept of it until it is settled, `Settled`
that it has left the claimed bucket with no snapshot attached, and
`Abandoned` that the call is over, or bound to end, with the claim still
there.

# Where a claim is left behind

Only the dispatch stands in a `try`. A payload that makes no request, a
core that cannot prepare it, a job that cannot be written all raise between
the claim and the `try`; and the handler takes no `CancelledError`. These
are `Abandons`. Nothing in the call repairs it, and every other call that
was handed an item settles it.
-/
import WeaveRuntime.Teammates.Lawful
import WeaveRuntime.Teammates.Shutdown

namespace WeaveRuntime.Teammates

open Lib
open Python
open Method (ensures_bind evolves_bind evolves_lift evolves_pure
  evolves_read evolves_write run_bind_of_error run_bind_of_ok
  run_lift_ok_bind run_read_bind run_within_of_ok state_bind_pure)

-- =============== apart

namespace Service

section Apart

variable {ι κ α β : Type}

/-- The mailbox, and what was handed out, are left alone. -/
def Apart (m : Call ι κ α) : Prop :=
  m.Evolves fun s t => t.mailbox = s.mailbox ∧ t.handed = s.handed

theorem apart_pure (a : α) : Apart (pure a : Call ι κ α) :=
  evolves_pure (fun _ => ⟨rfl, rfl⟩) a

theorem apart_read (f : Service ι κ → α) :
    Apart (Method.read f : Call ι κ α) :=
  evolves_read (fun _ => ⟨rfl, rfl⟩) f

theorem apart_lift (x : Except ServiceError α) :
    Apart (Method.lift x : Call ι κ α) :=
  evolves_lift (fun _ => ⟨rfl, rfl⟩) x

theorem apart_bind {m : Call ι κ α} {f : α → Call ι κ β} (hm : Apart m)
    (hf : ∀ a, Apart (f a)) : Apart (m >>= f) :=
  evolves_bind (fun _ _ _ h h' => ⟨h'.1.trans h.1, h'.2.trans h.2⟩)
    hm hf

theorem apart_writeSnapshot (next : TeammateStateSnapshot) :
    Apart (writeSnapshot next : Call ι κ Unit) :=
  evolves_write fun _ => ⟨rfl, rfl⟩

theorem apart_setProjection (found : TeammateStateSnapshot)
    (taskId : Option String) (taskStatus : Option TaskStatus)
    (progress notification : Option String) :
    Apart (setProjection found taskId taskStatus progress notification :
      Call ι κ Unit) :=
  evolves_write fun _ => ⟨rfl, rfl⟩

theorem apart_updateProjectionJob (taskId : Option String) (a : Answers) :
    Apart (updateProjectionJob taskId a : Call ι κ Unit) := by
  cases taskId with
  | none => exact apart_pure ()
  | some taskId => exact apart_lift _

theorem apart_reconcileProjectionJob (a : Answers) :
    Apart (reconcileProjectionJob a : Call ι κ (Option String)) :=
  apart_bind (apart_updateProjectionJob _ a) fun _ => apart_pure _

variable (M : TeammateMailbox ι κ) (config : OrchestrationConfig)

theorem apart_snapshot : Apart (snapshot M) := by
  refine apart_bind (apart_read _) fun held => ?_
  cases held with
  | some held => exact apart_pure _
  | none =>
    refine apart_bind (apart_read _) fun stored => ?_
    cases stored with
    | none => exact apart_pure _
    | some stored =>
      exact apart_bind (evolves_write fun _ => ⟨rfl, rfl⟩)
        fun _ => apart_pure _

theorem run_snapshot_ok (s : Service ι κ) :
    ∃ found t, (snapshot M).run s = (.ok found, t) := by
  unfold snapshot readState
  rw [run_read_bind]
  cases s.held with
  | some held => exact ⟨_, _, rfl⟩
  | none =>
    dsimp only
    rw [run_read_bind]
    cases s.stateFile with
    | none => exact ⟨_, _, rfl⟩
    | some stored => exact ⟨_, _, rfl⟩

theorem apart_attachRun (registration : TeammateRegistration)
    (claimed : MailboxEnvelope) (runId : String)
    (next : TeammateStateSnapshot) (a : Answers) :
    Apart (attachRun registration claimed runId next a : Call ι κ _) := by
  refine apart_bind (apart_writeSnapshot next) fun _ => ?_
  refine apart_bind (apart_lift _) fun taskId => ?_
  refine apart_bind (apart_updateProjectionJob _ a) fun _ => ?_
  exact apart_bind (apart_setProjection _ _ _ _ _) fun _ => apart_pure _

/-- The jobs a run needs are written. -/
def JobsWritten (a : Answers) : Prop :=
  (∃ taskId, a.createJob = .ok taskId) ∧ a.updateJob = .ok ()

theorem attachRun_ok {a : Answers} (h : JobsWritten a)
    (registration : TeammateRegistration) (claimed : MailboxEnvelope)
    (runId : String) (next : TeammateStateSnapshot) (s : Service ι κ) :
    ∃ run t, (attachRun registration claimed runId next a).run s = (.ok run, t)
      ∧ run.claimed = claimed := by
  obtain ⟨⟨taskId, hcreate⟩, hupdate⟩ := h
  unfold attachRun updateProjectionJob
  rw [hcreate, hupdate]
  exact ⟨_, _, rfl, rfl⟩

theorem attachRun_error {a : Answers} (h : ¬ JobsWritten a)
    (registration : TeammateRegistration) (claimed : MailboxEnvelope)
    (runId : String) (next : TeammateStateSnapshot) (s : Service ι κ) :
    ∃ error t, (attachRun registration claimed runId next a).run s
      = (.error error, t) := by
  unfold attachRun updateProjectionJob
  cases hcreate : a.createJob with
  | error error => exact ⟨_, _, rfl⟩
  | ok taskId =>
    cases hupdate : a.updateJob with
    | error error => exact ⟨_, _, rfl⟩
    | ok u => exact absurd ⟨⟨taskId, hcreate⟩, hupdate⟩ h

theorem apart_restoreRegistration (found : TeammateStateSnapshot) :
    Apart (restoreRegistration config found : Call ι κ Unit) := by
  unfold restoreRegistration
  split
  · exact evolves_write fun _ => ⟨rfl, rfl⟩
  · exact apart_pure ()

theorem apart_resolveRegistration : Apart (resolveRegistration M config) := by
  refine apart_bind (apart_read _) fun registration => ?_
  cases registration with
  | some registration => exact apart_pure _
  | none =>
    refine apart_bind (apart_read _) fun stored => ?_
    refine apart_bind (apart_lift _) fun stored => ?_
    refine apart_bind (apart_restoreRegistration config stored) fun _ => ?_
    exact apart_bind (apart_read _) fun _ => apart_lift _

theorem apart_finishShutdown (found : TeammateStateSnapshot) :
    Apart (finishShutdown config found : Call ι κ Unit) :=
  apart_bind (apart_writeSnapshot _) fun _ =>
    apart_bind (apart_read _) fun _ => apart_setProjection _ _ _ _ _

theorem apart_completeShutdown (workflowId : UuidHex) (a : Answers) :
    Apart (completeShutdown M config workflowId a) := by
  refine apart_bind (apart_snapshot M) fun found => ?_
  cases found with
  | none => exact apart_pure _
  | some found =>
    dsimp only
    split
    · cases a.shutdownWorkflow with
      | closed =>
        exact apart_bind (apart_finishShutdown config found) fun _ =>
          apart_pure _
      | _ => exact apart_pure _
    · exact apart_pure _

theorem apart_resumeComplete (frame : CompleteFrame) (a : Answers) :
    Apart (resumeComplete config frame a : Call ι κ _) := by
  refine apart_bind (apart_lift _) fun _ => ?_
  split
  · exact apart_pure _
  · exact apart_bind (apart_finishShutdown config _) fun _ => apart_pure _

theorem apart_beginShutdown (workflowId : UuidHex) (a : Answers) :
    Apart (beginShutdown M config workflowId a) := by
  refine apart_bind (apart_snapshot M) fun found => ?_
  cases found with
  | none => exact apart_pure _
  | some found =>
    refine apart_bind (apart_writeSnapshot _) fun _ => ?_
    refine apart_bind (apart_read _) fun taskId => ?_
    refine apart_bind (apart_updateProjectionJob taskId a) fun _ => ?_
    exact apart_bind (apart_setProjection _ _ _ _ _) fun _ => apart_pure _

theorem apart_enterPermissionWait (permissionId : String) (a : Answers) :
    Apart (enterPermissionWait M permissionId a) := by
  refine apart_bind (apart_snapshot M) fun found => ?_
  cases found with
  | none => exact apart_pure _
  | some found =>
    refine apart_bind (evolves_write fun _ => ⟨rfl, rfl⟩) fun _ => ?_
    refine apart_bind (apart_writeSnapshot _) fun _ => ?_
    refine apart_bind (apart_read _) fun taskId => ?_
    exact apart_bind (apart_updateProjectionJob taskId a) fun _ =>
      apart_setProjection _ _ _ _ _

theorem apart_exitPermissionWait (permissionId : String) (a : Answers) :
    Apart (exitPermissionWait M permissionId a) := by
  refine apart_bind (evolves_write fun _ => ⟨rfl, rfl⟩) fun _ => ?_
  refine apart_bind (apart_snapshot M) fun found => ?_
  cases found with
  | none => exact apart_pure _
  | some found =>
    dsimp only
    split
    · refine apart_bind (apart_writeSnapshot _) fun _ => ?_
      refine apart_bind (apart_read _) fun taskId => ?_
      exact apart_bind (apart_updateProjectionJob taskId a) fun _ =>
        apart_setProjection _ _ _ _ _
    · exact apart_pure _

theorem apart_finishRecover (found : TeammateStateSnapshot)
    (taskId : Option String) (taskStatus : Option TaskStatus) :
    Apart (finishRecover found taskId taskStatus : Call ι κ Unit) := by
  refine apart_bind ?_ fun _ => evolves_write fun _ => ⟨rfl, rfl⟩
  unfold projectRecovered
  split
  · exact apart_setProjection _ _ _ _ _
  · split
    · exact apart_setProjection _ _ _ _ _
    · exact apart_pure _

theorem apart_hasLivePermissionWait (found : TeammateStateSnapshot)
    (a : Answers) : Apart (hasLivePermissionWait found a : Call ι κ Bool) := by
  unfold hasLivePermissionWait
  cases found.waitingPermissionId with
  | none => exact apart_pure _
  | some permissionId =>
    exact apart_bind (apart_read _) fun _ => apart_pure _

theorem apart_stopInstead (existing : TeammateStateSnapshot) (a : Answers) :
    Apart (stopInstead M config existing a) := by
  unfold stopInstead
  cases existing.shutdownWorkflowId with
  | none => exact apart_pure _
  | some workflowId =>
    dsimp only
    split
    · exact apart_pure _
    · exact apart_completeShutdown M config _ a

theorem apart_nothingReady (a : Answers) :
    Apart (nothingReady M config a) := by
  refine apart_bind (apart_snapshot M) fun found => ?_
  refine apart_bind (apart_read _) fun activeClaims => ?_
  cases found with
  | none => exact apart_pure _
  | some found =>
    dsimp only
    split
    · refine apart_bind (apart_setProjection _ _ _ _ _) fun _ => ?_
      split
      · exact apart_completeShutdown M config _ a
      · exact apart_pure _
    · refine apart_bind ?_ fun found => ?_
      · unfold settleIdle
        split
        · exact apart_bind (apart_writeSnapshot _) fun _ => apart_pure _
        · exact apart_pure _
      · split
        · exact apart_bind (apart_setProjection _ _ _ _ _) fun _ =>
            apart_pure _
        · exact apart_pure _

theorem apart_detach (frame : RecoverFrame) :
    Apart (detach frame : Call ι κ _) := by
  unfold detach
  split
  · exact apart_bind (apart_writeSnapshot _) fun _ => apart_pure _
  · exact apart_pure _

-- ============ detached

def Detached (found : TeammateStateSnapshot) : Prop :=
  found.currentMessageId = none ∧ found.currentRunId = none
    ∧ found.currentClaimId = none

theorem keeps_detached_completeShutdown (workflowId : UuidHex) (a : Answers) :
    Keeps Detached (fun _ => True) (completeShutdown M config workflowId a) :=
  keeps_completeShutdown M config (fun _ _ => ⟨rfl, rfl, rfl⟩) workflowId a

theorem keeps_detached_resumeComplete (frame : CompleteFrame) (a : Answers) :
    Keeps Detached (fun _ => True)
      (resumeComplete config frame a : Call ι κ _) := by
  refine keeps_bind (keeps_lift _) fun _ => ?_
  split
  · exact keeps_pure _
  · exact keeps_bind (keeps_finishShutdown config ⟨rfl, rfl, rfl⟩)
      fun _ => keeps_pure _

theorem keeps_detached_beginShutdown (workflowId : UuidHex) (a : Answers) :
    Keeps Detached (fun _ => True) (beginShutdown M config workflowId a) := by
  intro s hs
  obtain ⟨found, hfound, hdetached⟩ := hs.held
  exact beginShutdown_carries M config hfound hdetached trivial

theorem failRun_result {run : RunFrame} {text : String} {a : Answers}
    {s t : Service ι κ} {progress : Processing}
    (h : (failRun M config run text a).run s = (.ok progress, t)) :
    progress = .waiting (.notifyingFailure run
      (.thrown (.exception text))) := by
  unfold failRun at h
  cases hfail : (failWork M config run text a).run s with
  | mk r u =>
    cases r with
    | error error =>
      rw [run_bind_of_error hfail] at h
      cases h
    | ok settled =>
      rw [run_bind_of_ok hfail] at h
      unfold updateProjectionJob at h
      cases hupdate : a.updateJob with
      | error error =>
        rw [hupdate] at h
        cases h
      | ok v =>
        rw [hupdate] at h
        cases h
        rfl

theorem run_beat (run : RunFrame) (now : Datetime) (s : Service ι κ) :
    ((beat M run now).run s).2 = { s with
      mailbox := ((M.store.heartbeat run.claimed.messageId
        (run.claimed.claimId.getD "None") now).run s.mailbox).2 } := by
  unfold beat
  rw [state_tryExcept, state_bind_pure]
  rfl

end Apart

-- ============ the call

section WorkCall

variable {ι κ α : Type}

/-- Where a call of the processor is. -/
inductive Stage where
  | ready
  | waiting (frame : ProcessFrame)
  | ended

structure WorkCall (ι κ : Type) where
  service : Service ι κ
  stage : Stage

/-- The call starts or goes on, or something else is done while it
waits. -/
inductive CallEvent where
  | start (a : Answers)
  | resume (a : Answers)
  | beginShutdown (workflowId : UuidHex) (a : Answers)
  | enterPermissionWait (permissionId : String) (a : Answers)
  | exitPermissionWait (permissionId : String) (a : Answers)
  | beat (now : Datetime)

/-- A call that raised or returned has ended. -/
def stageOf : Except ServiceError Processing → Stage
  | .ok (.waiting frame) => .waiting frame
  | _ => .ended

/-- A piece of the call. -/
def WorkCall.go (t : WorkCall ι κ) (m : Call ι κ Processing) : WorkCall ι κ :=
  ⟨(m.run t.service).2, stageOf (m.run t.service).1⟩

def WorkCall.meanwhile (t : WorkCall ι κ) (m : Call ι κ α) :
    Option (WorkCall ι κ) :=
  match t.stage with
  | .waiting _ => some { t with service := (m.run t.service).2 }
  | _ => none

theorem meanwhile_eq_some {m : Call ι κ α} {t t' : WorkCall ι κ}
    (h : t.meanwhile m = some t') :
    (∃ frame, t.stage = .waiting frame)
      ∧ t' = { t with service := (m.run t.service).2 } := by
  unfold WorkCall.meanwhile at h
  cases hstage : t.stage with
  | waiting frame =>
    rw [hstage] at h
    exact ⟨⟨frame, rfl⟩, (Option.some.inj h).symm⟩
  | _ =>
    rw [hstage] at h
    cases h

def callSystem (M : TeammateMailbox ι κ) (config : OrchestrationConfig) :
    System (WorkCall ι κ) CallEvent where
  step t
    | .start a =>
      match t.stage with
      | .ready => some (t.go (processNextWorkItem M config a))
      | _ => none
    | .resume a =>
      match t.stage with
      | .waiting frame => some (t.go (Service.resume M config frame a))
      | _ => none
    | .beginShutdown workflowId a =>
      t.meanwhile (Service.beginShutdown M config workflowId a)
    | .enterPermissionWait permissionId a =>
      t.meanwhile (Service.enterPermissionWait M permissionId a)
    | .exitPermissionWait permissionId a =>
      t.meanwhile (Service.exitPermissionWait M permissionId a)
    | .beat now =>
      match t.stage with
      | .waiting frame =>
        frame.beating.bind fun run => t.meanwhile (Service.beat M run now)
      | _ => none

end WorkCall

-- ============= recover

section Recover

variable {ι κ α β : Type} [DecidableEq ι] [DecidableEq κ]
  (M : LawfulMailbox ι κ) (config : OrchestrationConfig)

/-- Nothing is handed out, and the names in the mailbox stay as they are
made. -/
def Orderly (handed : List MailboxEnvelope) (s : Service ι κ) : Prop :=
  Keyed M.inboxKey M.key s.mailbox ∧ s.handed = handed

def Pending (claims : List MailboxEnvelope) (s : Service ι κ) : Prop :=
  (∀ e ∈ claims, Live M e s.mailbox)
    ∧ claims.Pairwise fun e f => ∀ c d, e.claimId = some c →
      f.claimId = some d → M.key e.messageId c ≠ M.key f.messageId d

variable {M} {handed : List MailboxEnvelope} {s : Service ι κ}

theorem Orderly.of_apart {t : Service ι κ} (hs : Orderly M handed s)
    (h : t.mailbox = s.mailbox ∧ t.handed = s.handed) : Orderly M handed t :=
  ⟨h.1 ▸ hs.1, h.2.trans hs.2⟩

variable (M)

theorem recoverFrom_ensures (found : TeammateStateSnapshot) (a : Answers)
    (s : Service ι κ) :
    (recoverFrom M.toTeammateMailbox config found a).Ensures s fun r t =>
      (t.mailbox = s.mailbox ∧ t.handed = s.handed)
      ∧ ∀ frame, r = .ok (.waiting frame) →
        M.listClaimed s.mailbox = frame.envelope :: frame.remaining := by
  refine ensures_bind (P := fun _ t => t.mailbox = s.mailbox
    ∧ t.handed = s.handed) ⟨rfl, rfl⟩ (fun _ t ht => ?_)
    (fun e t ht => ⟨ht, fun _ h => nomatch h⟩)
  refine ensures_bind (P := fun _ u => u.mailbox = s.mailbox
    ∧ u.handed = s.handed) ?_ (fun _ u hu => ?_)
    (fun e u hu => ⟨hu, fun _ h => nomatch h⟩)
  · have hrestore := apart_restoreRegistration config found t
    exact ⟨hrestore.1.trans ht.1, hrestore.2.trans ht.2⟩
  refine ensures_bind (P := fun _ v => v.mailbox = s.mailbox
    ∧ v.handed = s.handed) ?_ (fun live v hv => ?_)
    (fun e v hv => ⟨hv, fun _ h => nomatch h⟩)
  · have hwait := apart_hasLivePermissionWait found a u
    exact ⟨hwait.1.trans hu.1, hwait.2.trans hu.2⟩
  unfold Method.Ensures
  rw [run_read_bind, ← hv.1]
  cases hclaimed : M.listClaimed v.mailbox with
  | cons envelope remaining =>
    refine ⟨⟨rfl, hv.2⟩, fun frame h => ?_⟩
    cases h
    rfl
  | nil =>
    dsimp only
    have hapart : ∀ {m : Call ι κ (Progress (List TeammateRecoveryResult)
        RecoverFrame)}, Apart m →
        (m.run v).2.mailbox = v.mailbox ∧ (m.run v).2.handed = s.handed :=
      fun hm => ⟨(hm v).1, (hm v).2.trans hv.2⟩
    split
    · refine ⟨hapart ?_, fun frame h => ?_⟩
      · refine apart_bind (apart_reconcileProjectionJob a) fun _ => ?_
        refine apart_bind (apart_writeSnapshot _) fun _ => ?_
        exact apart_bind (evolves_write fun _ => ⟨rfl, rfl⟩)
          fun _ => apart_pure _
      · cases hjob : (reconcileProjectionJob a).run v with
        | mk r w =>
          cases r with
          | error e =>
            rw [run_bind_of_error hjob] at h
            cases h
          | ok jobId =>
            rw [run_bind_of_ok hjob] at h
            cases h
    · refine ⟨hapart (apart_bind (apart_finishRecover _ _ _) fun _ =>
        apart_pure _), fun frame h => ?_⟩
      cases hfinish : (finishRecover found none none).run v with
      | mk r w =>
        cases r with
        | error e =>
          rw [run_bind_of_error hfinish] at h
          cases h
        | ok u =>
          rw [run_bind_of_ok hfinish] at h
          cases h

theorem recover_ensures (a : Answers) (hs : Orderly M handed s) :
    (recover M.toTeammateMailbox config a).Ensures s fun r t =>
      Orderly M handed t ∧ ∀ frame, r = .ok (.waiting frame) →
        Pending M (frame.envelope :: frame.remaining) t := by
  unfold Method.Ensures recover readState
  rw [run_read_bind]
  cases s.stateFile with
  | none => exact ⟨hs, fun _ h => nomatch h⟩
  | some found =>
    obtain ⟨hapart, hframe⟩ := recoverFrom_ensures M config
      (M.readState found) a s
    refine ⟨hs.of_apart hapart, fun frame h => ?_⟩
    rw [← hframe frame h]
    refine ⟨fun e he => ?_, M.distinct s.mailbox hs.1.labelled⟩
    obtain ⟨c, hc, hlive⟩ := M.listed s.mailbox hs.1.labelled e he
    rw [← hapart.1] at hlive
    exact ⟨c, hc, hlive⟩

variable {claims : List MailboxEnvelope} {e : MailboxEnvelope}
  {frame : RecoverFrame} {m : Call ι κ α} {rest : List MailboxEnvelope}
  {t t' : WorkCall ι κ}

theorem Pending.erase {t : Service ι κ} {c : String}
    (h : Pending M (e :: rest) s) (hc : e.claimId = some c)
    (ht : t.mailbox.claimed = s.mailbox.claimed.erase (M.key e.messageId c)) :
    Pending M rest t := by
  obtain ⟨hlive, hdistinct⟩ := h
  obtain ⟨hhead, htail⟩ := List.pairwise_cons.1 hdistinct
  refine ⟨fun f hf => ?_, htail⟩
  obtain ⟨d, hd, hfd⟩ := hlive f (List.mem_cons_of_mem _ hf)
  refine ⟨d, hd, ?_⟩
  rw [ht, Dict.contains_iff, Dict.mem_keys_erase]
  exact ⟨fun heq => hhead f hf c d hc hd heq.symm, Dict.contains_iff.1 hfd⟩

theorem Pending.of_apart {t : Service ι κ} (h : Pending M claims s)
    (ht : t.mailbox = s.mailbox) : Pending M claims t :=
  ⟨fun e he => ht ▸ h.1 e he, h.2⟩

/-- A part of `recover` after which the claims are still as listed, where
it does not raise. -/
def Recovering (handed claims : List MailboxEnvelope)
    (m : Call ι κ α) (s : Service ι κ) : Prop :=
  m.Ensures s fun r t => t.handed = handed
    ∧ ∀ x, r = .ok x → Orderly M handed t ∧ Pending M claims t

theorem recovering_of_apart (hm : Apart m) (hs : Orderly M handed s)
    (hp : Pending M claims s) : Recovering M handed claims m s :=
  ⟨(hm s).2.trans hs.2, fun _ _ => ⟨hs.of_apart (hm s),
    hp.of_apart M (hm s).1⟩⟩

theorem recovering_bind {claims' : List MailboxEnvelope} {f : α → Call ι κ β}
    (hm : Recovering M handed claims m s)
    (hf : ∀ x t, Orderly M handed t → Pending M claims t →
      Recovering M handed claims' (f x) t) :
    Recovering M handed claims' (m >>= f) s :=
  ensures_bind hm
    (fun x t h => hf x t (h.2 x rfl).1 (h.2 x rfl).2)
    (fun _ _ h => ⟨h.1, fun _ heq => nomatch heq⟩)

theorem recovering_failClaim (reason : String) (a : Answers)
    (hs : Orderly M handed s) (hp : Pending M (frame.envelope :: rest) s) :
    Recovering M handed rest
      (failClaim M.toTeammateMailbox config frame reason a) s := by
  refine recovering_bind M (recovering_of_apart M
    (apart_resolveRegistration M.toTeammateMailbox config) hs hp)
    fun registration t ht hpt => ?_
  obtain ⟨c, hc, hlive⟩ := hpt.1 frame.envelope List.mem_cons_self
  rcases failOrRetry_run ht.1 hc hlive config.mailbox reason
    (some registration.retryMaxAttempts) a.now a.backoffEnd a.tempId with
    ⟨settled, u, hrun, hkeyed, -, hclaimed⟩ | ⟨-, error, u, hrun⟩
  · unfold Recovering Method.Ensures onMailbox
    rw [run_within_of_ok hrun]
    exact ⟨ht.2, fun _ _ => ⟨⟨hkeyed, ht.2⟩, hpt.erase M hc hclaimed⟩⟩
  · refine ⟨ht.2, fun x hx => ?_⟩
    replace hx : ((M.store.failOrRetry config.mailbox frame.envelope reason
      (some registration.retryMaxAttempts) a.now a.backoffEnd a.tempId).run
        t.mailbox).1.mapError ServiceError.mailbox = .ok x := hx
    rw [hrun] at hx
    cases hx

theorem recovering_giveBack (reason : String) (a : Answers)
    (hs : Orderly M handed s) (hp : Pending M (frame.envelope :: rest) s) :
    Recovering M handed rest
      (giveBack M.toTeammateMailbox config frame reason a) s := by
  refine recovering_bind M
    (recovering_failClaim M config reason a hs hp) fun settled t ht hpt => ?_
  refine recovering_of_apart M ?_ ht hpt
  refine apart_bind (apart_reconcileProjectionJob a) fun taskId => ?_
  exact apart_bind (apart_detach frame) fun next => apart_pure _

theorem recovering_pure (x : α) (hs : Orderly M handed s)
    (hp : Pending M claims s) :
    Recovering M handed claims (pure x : Call ι κ α) s :=
  recovering_of_apart M (apart_pure x) hs hp

theorem Pending.tail (h : Pending M (e :: rest) s) : Pending M rest s :=
  ⟨fun f hf => h.1 f (List.mem_cons_of_mem _ hf),
    (List.pairwise_cons.1 h.2).2⟩

theorem recovering_recoverClaim (a : Answers) (hs : Orderly M handed s)
    (hp : Pending M (frame.envelope :: rest) s) :
    Recovering M handed rest
      (recoverClaim M.toTeammateMailbox config frame a) s := by
  refine recovering_bind M (recovering_of_apart M (apart_lift _) hs hp)
    fun linked t ht hpt => ?_
  dsimp only
  split
  · exact recovering_giveBack M config _ a ht hpt
  · refine recovering_bind M (recovering_of_apart M (apart_lift _) ht hpt)
      fun stale u hu hpu => ?_
    split
    · exact recovering_giveBack M config _ a hu hpu
    · split
      · exact recovering_pure M _ hu (hpu.tail M)
      · exact recovering_pure M _ hu (hpu.tail M)

/-- A round of `recover`: it ends, or waits for the next claim. -/
theorem resumeRecover_ensures (a : Answers) (hs : Orderly M handed s)
    (hp : Pending M (frame.envelope :: frame.remaining) s) :
    (resumeRecover M.toTeammateMailbox config frame a).Ensures s fun r t =>
      t.handed = handed ∧ ∀ progress, r = .ok progress →
        Orderly M handed t ∧ ∀ next, progress = .waiting next →
          Pending M (next.envelope :: next.remaining) t := by
  refine ensures_bind (recovering_recoverClaim M config a hs hp)
    (fun next t h => ?_) (fun _ _ h => ⟨h.1, fun _ heq => nomatch heq⟩)
  obtain ⟨ht, hpt⟩ := h.2 next rfl
  cases hrest : frame.remaining with
  | cons envelope remaining =>
    rw [hrest] at hpt
    refine ⟨ht.2, fun progress hprogress => ⟨ht, fun next' hnext => ?_⟩⟩
    cases hprogress
    cases hnext
    exact hpt
  | nil =>
    have hapart : Apart (nextClaim [] next : Call ι κ _) :=
      apart_bind (apart_finishRecover _ _ _) fun _ => apart_pure _
    refine ⟨(hapart t).2.trans ht.2, fun progress hprogress =>
      ⟨ht.of_apart (hapart t), fun next' hnext => ?_⟩⟩
    rw [hnext] at hprogress
    cases hfinish : (finishRecover next.snapshot next.recoveredTaskId
        next.recoveredTaskStatus).run t with
    | mk r u =>
      unfold nextClaim at hprogress
      cases r with
      | error e =>
        rw [run_bind_of_error hfinish] at hprogress
        cases hprogress
      | ok x =>
        rw [run_bind_of_ok hfinish] at hprogress
        cases hprogress

-- =============== claim

/-- The envelope was handed out last, its claim is there, and its place in
the inbox is free. -/
structure Handed (handed : List MailboxEnvelope) (e : MailboxEnvelope)
    (s : Service ι κ) : Prop where
  keyed : Keyed M.inboxKey M.key s.mailbox
  live : Live M e s.mailbox
  free : M.inboxKey e.messageId ∉ s.mailbox.inbox.keys
  last : s.handed = e :: handed

variable {M} in
theorem Handed.of_apart {t : Service ι κ} (h : Handed M handed e s)
    (ht : t.mailbox = s.mailbox ∧ t.handed = s.handed) :
    Handed M handed e t :=
  ⟨ht.1 ▸ h.keyed, ht.1 ▸ h.live, ht.1 ▸ h.free, ht.2.trans h.last⟩

theorem Handed.rewrite {f : MailboxEnvelope} {c : String}
    (h : Handed M handed e s) (hc : e.claimId = some c)
    (hid : f.messageId = e.messageId) (hclaim : f.claimId = some c) :
    Handed M handed e { s with
      mailbox := { s.mailbox with
        claimed := s.mailbox.claimed.insert (M.key e.messageId c) f } } := by
  obtain ⟨c', hc', hlive⟩ := h.live
  rw [hc] at hc'
  cases hc'
  obtain ⟨-, -, -, -, d, hd⟩ := h.keyed.labelled.held M.delivers.key_inj hlive
  refine ⟨⟨h.keyed.waiting, fun k g hg => ?_⟩,
    ⟨c, hc, contains_insert_self _ _⟩, h.free, h.last⟩
  dsimp only at hg
  rw [Dict.get?_insert] at hg
  split at hg
  · next hk =>
    cases hg
    exact ⟨d, hd ▸ hclaim, by rw [hk, hid, hd]⟩
  · exact h.keyed.labelled k g hg

theorem claimItem_ensures (a : Answers) (hs : Orderly M handed s) :
    (claimItem M.toTeammateMailbox config a).Ensures s fun r t =>
      (t.handed = handed ∧ ∀ registration e,
        r ≠ .ok (.handed registration e))
      ∨ ∃ registration e, r = .ok (.handed registration e)
        ∧ Handed M handed e t := by
  refine ensures_bind (P := fun _ t => Orderly M handed t)
    (hs.of_apart (apart_resolveRegistration M.toTeammateMailbox config s))
    (fun registration t ht => ?_)
    (fun _ t ht => Or.inl ⟨ht.2, fun _ _ h => nomatch h⟩)
  rcases M.delivers.claimNext t.mailbox config.mailbox
    ("teammate:" ++ config.teammateId) (some registration.claimLeaseMs) a.now
    a.claimId with hnone | ⟨k, kept, read, lease, hk, hread, hsome⟩
  · unfold Method.Ensures onMailbox
    rw [run_bind_of_ok (run_within_of_ok hnone)]
    have hapart : Apart (nothingReady M.toTeammateMailbox config a
        >>= fun frame => pure (Claiming.nothing frame)) :=
      apart_bind (apart_nothingReady M.toTeammateMailbox config a)
        fun _ => apart_pure _
    refine Or.inl ⟨(hapart _).2.trans ht.2, fun _ _ h => ?_⟩
    cases hnothing : (nothingReady M.toTeammateMailbox config a).run
        { t with mailbox := t.mailbox } with
    | mk r u =>
      dsimp only at h
      cases r with
      | error e =>
        rw [run_bind_of_error hnothing] at h
        cases h
      | ok frame =>
        rw [run_bind_of_ok hnothing] at h
        cases h
  · unfold Method.Ensures onMailbox
    rw [run_bind_of_ok (run_within_of_ok hsome)]
    have hname := ht.1.waiting k kept hk
    refine Or.inr ⟨registration, _, rfl, ⟨fun i f hf => ?_, fun i f hf => ?_⟩,
      ⟨a.claimId.text, rfl, contains_insert_self _ _⟩, ?_,
      congrArg _ ht.2⟩
    · replace hf : (t.mailbox.inbox.erase k).get? i = some f := hf
      rw [Dict.get?_erase] at hf
      split at hf
      · cases hf
      · exact ht.1.waiting i f hf
    · replace hf : (t.mailbox.claimed.insert _ _).get? i = some f := hf
      rw [Dict.get?_insert] at hf
      split at hf
      · next hi =>
        cases hf
        exact ⟨a.claimId, rfl, hi⟩
      · exact ht.1.labelled i f hf
    · show M.inboxKey read.messageId ∉ (t.mailbox.inbox.erase k).keys
      rw [hread.1, ← hname, Dict.mem_keys_erase]
      exact fun h => h.1 rfl

theorem claimWork_ensures (a : Answers) (hs : Orderly M handed s) :
    (claimWork M.toTeammateMailbox config a).Ensures s fun r t =>
      (t.handed = handed ∧ ∀ registration e,
        r ≠ .ok (.handed registration e))
      ∨ ∃ registration e, r = .ok (.handed registration e)
        ∧ Handed M handed e t := by
  refine ensures_bind (P := fun _ t => Orderly M handed t)
    (hs.of_apart (apart_snapshot M.toTeammateMailbox s))
    (fun existing t ht => ?_)
    (fun _ t ht => Or.inl ⟨ht.2, fun _ _ h => nomatch h⟩)
  split
  · next found _ =>
    have hstop : (stopInstead M.toTeammateMailbox config found a).Ensures t
        fun _ u => u.handed = handed :=
      (apart_stopInstead M.toTeammateMailbox config found a t).2.trans ht.2
    refine ensures_bind hstop (fun frame u hu => ?_)
      (fun _ u hu => Or.inl ⟨hu, fun _ _ h => nomatch h⟩)
    exact Or.inl ⟨hu, fun _ _ h => nomatch h⟩
  · exact claimItem_ensures M config a ht

-- ============= prepare

/-- The payload makes a request, the core prepares it, and its job is
written. -/
def Prepares (registration : TeammateRegistration) (e : MailboxEnvelope)
    (a : Answers) : Prop :=
  ∃ request, buildExecutionRequest config registration e = .ok request
    ∧ (∃ runId, a.prepareExecution request = .ok runId) ∧ JobsWritten a

def Owed (handed : List MailboxEnvelope) (run : RunFrame)
    (s : Service ι κ) : Prop :=
  ∃ e, run.claimed.messageId = e.messageId ∧ run.claimed.claimId = e.claimId
    ∧ Handed M handed e s

variable {M} in
theorem Owed.of_apart {run : RunFrame} {t : Service ι κ}
    (h : Owed M handed run s)
    (ht : t.mailbox = s.mailbox ∧ t.handed = s.handed) :
    Owed M handed run t := by
  obtain ⟨e, hid, hclaim, hhanded⟩ := h
  exact ⟨e, hid, hclaim, hhanded.of_apart ht⟩

def LeftBehind (handed : List MailboxEnvelope) (s : Service ι κ) : Prop :=
  ∃ e, s.handed = e :: handed ∧ Live M e s.mailbox

variable {M} in
theorem Handed.leftBehind (h : Handed M handed e s) :
    LeftBehind M handed s := ⟨e, h.last, h.live⟩

theorem attachRun_ensures {claimed : MailboxEnvelope}
    (hid : claimed.messageId = e.messageId)
    (hclaim : claimed.claimId = e.claimId)
    (registration : TeammateRegistration) (runId : String)
    (next : TeammateStateSnapshot) (a : Answers) (h : Handed M handed e s) :
    (attachRun registration claimed runId next a).Ensures s fun r t =>
      (JobsWritten a → ∃ run, r = .ok run ∧ Owed M handed run t)
      ∧ (¬ JobsWritten a → (∃ error, r = .error error)
        ∧ LeftBehind M handed t) := by
  have ht := h.of_apart (apart_attachRun registration claimed runId next a s)
  unfold Method.Ensures
  refine ⟨fun hjobs => ?_, fun hjobs => ?_⟩
  · obtain ⟨run, t, hrun, hclaimed⟩ := attachRun_ok hjobs registration
      claimed runId next s
    rw [hrun] at ht ⊢
    rw [← hclaimed] at hid hclaim
    exact ⟨run, rfl, e, hid, hclaim, ht⟩
  · obtain ⟨error, t, hrun⟩ := attachRun_error hjobs registration
      claimed runId next s
    rw [hrun] at ht ⊢
    exact ⟨⟨error, rfl⟩, ht.leftBehind⟩

theorem linkRun_ensures (registration : TeammateRegistration) (runId : String)
    (a : Answers) (h : Handed M handed e s) :
    (linkRun M.toTeammateMailbox registration e runId a).Ensures s fun r t =>
      (JobsWritten a → ∃ run, r = .ok run ∧ Owed M handed run t)
      ∧ (¬ JobsWritten a → (∃ error, r = .error error)
        ∧ LeftBehind M handed t) := by
  obtain ⟨c, hc, hlive⟩ := h.live
  have hupdate := (M.delivers.rules s.mailbox e.messageId c h.keyed.labelled
    hlive).update (e.withRunLinkage runId) rfl hc
  unfold Method.Ensures linkRun onMailbox
  rw [run_bind_of_ok (run_within_of_ok hupdate)]
  obtain ⟨found, t, hfound⟩ := run_snapshot_ok M.toTeammateMailbox
    { s with
      mailbox := { s.mailbox with
        claimed := s.mailbox.claimed.insert (M.key e.messageId c)
          (e.withRunLinkage runId) } }
  have ht : Handed M handed e t := by
    refine (h.rewrite M hc (f := e.withRunLinkage runId) rfl hc).of_apart ?_
    have hapart := apart_snapshot M.toTeammateMailbox { s with
      mailbox := { s.mailbox with
        claimed := s.mailbox.claimed.insert (M.key e.messageId c)
          (e.withRunLinkage runId) } }
    rw [hfound] at hapart
    exact hapart
  rw [run_bind_of_ok hfound]
  exact attachRun_ensures M (e := e)
    (rfl : (e.withRunLinkage runId).messageId = e.messageId)
    (rfl : (e.withRunLinkage runId).claimId = e.claimId) registration runId _
    a ht

theorem prepareRun_ensures (registration : TeammateRegistration) (a : Answers)
    (h : Handed M handed e s) :
    (prepareRun M.toTeammateMailbox config registration e a).Ensures s
      fun r t =>
        (Prepares config registration e a →
          ∃ run, r = .ok run ∧ Owed M handed run t)
        ∧ (¬ Prepares config registration e a →
          (∃ error, r = .error error) ∧ LeftBehind M handed t) := by
  unfold Method.Ensures prepareRun
  cases hbuild : buildExecutionRequest config registration e with
  | error error =>
    refine ⟨fun hprep => ?_, fun _ => ⟨⟨error, rfl⟩, h.leftBehind⟩⟩
    obtain ⟨request, hrequest, -⟩ := hprep
    rw [hbuild] at hrequest
    cases hrequest
  | ok request =>
    rw [run_lift_ok_bind]
    cases hprepare : a.prepareExecution request with
    | error error =>
      refine ⟨fun hprep => ?_, fun _ => ⟨⟨.thrown error, rfl⟩,
        h.leftBehind⟩⟩
      obtain ⟨request', hrequest, ⟨runId, hrun⟩, -⟩ := hprep
      rw [hbuild] at hrequest
      cases hrequest
      rw [hprepare] at hrun
      cases hrun
    | ok runId =>
      obtain ⟨hok, herror⟩ := linkRun_ensures M registration runId a h
      refine ⟨fun hprep => ?_, fun hprep => ?_⟩
      · obtain ⟨request', hrequest, -, hjobs⟩ := hprep
        exact hok hjobs
      · refine herror fun hjobs => hprep ?_
        exact ⟨request, hbuild, ⟨runId, hprepare⟩, hjobs⟩

-- ============= settled

/-- The envelope has left the claimed bucket, and the snapshots that are
stored have nothing attached. -/
structure Settled (e : MailboxEnvelope) (s : Service ι κ) : Prop where
  left : HasLeft M e s.mailbox
  detached : Carries Detached (fun _ => True) s

def LastSettled (handed : List MailboxEnvelope) (s : Service ι κ) : Prop :=
  ∃ e, s.handed = e :: handed ∧ Settled M e s

/-- The call may end here. -/
def Closed (handed : List MailboxEnvelope) (s : Service ι κ) : Prop :=
  s.handed = handed ∨ LastSettled M handed s

variable {M} in
theorem LastSettled.run (h : LastSettled M handed s) (hm : Apart m)
    (hkeeps : Keeps Detached (fun _ => True) m) :
    LastSettled M handed (m.run s).2 := by
  obtain ⟨e, hlast, hleft, hdetached⟩ := h
  exact ⟨e, (hm s).2.trans hlast, (hm s).1 ▸ hleft, hkeeps s hdetached⟩

variable {M} in
theorem Closed.run (h : Closed M handed s) (hm : Apart m)
    (hkeeps : Keeps Detached (fun _ => True) m) :
    Closed M handed (m.run s).2 :=
  h.imp (fun hnone => (hm s).2.trans hnone) fun hlast =>
    hlast.run hm hkeeps

theorem lastSettled_write {e : MailboxEnvelope} {f : Unit → Call ι κ β}
    {next : TeammateStateSnapshot} (hlast : s.handed = e :: handed)
    (hleft : HasLeft M e s.mailbox) (hnext : Detached next) (hf : Apart (f ()))
    (hkeeps : Keeps Detached (fun _ => True) (f ())) :
    LastSettled M handed ((writeSnapshot next >>= f).run s).2 := by
  have hwritten : LastSettled M handed
      { s with held := some next, stateFile := some next } :=
    ⟨e, hlast, hleft, ⟨next, rfl, hnext⟩, ⟨next, rfl, hnext⟩, trivial⟩
  exact hwritten.run hf hkeeps

theorem Owed.left {run : RunFrame} (h : Owed M handed run s) {c : String}
    (hc : run.claimed.claimId = some c) {mailbox : MailboxState ι κ}
    (hleft : Left M run.claimed.messageId c mailbox) :
    ∃ e, s.handed = e :: handed ∧ HasLeft M e mailbox := by
  obtain ⟨e, hid, hclaim, hhanded⟩ := h
  exact ⟨e, hhanded.last, c, hclaim ▸ hc, hid ▸ hleft⟩

theorem Owed.live {run : RunFrame} (h : Owed M handed run s) :
    Live M run.claimed s.mailbox := by
  obtain ⟨e, hid, hclaim, hhanded⟩ := h
  exact hhanded.live.congr hid hclaim

theorem failWork_run {run : RunFrame} (h : Owed M handed run s)
    (reason : String) (a : Answers) :
    ∃ settled mailbox,
      (failWork M.toTeammateMailbox config run reason a).run s
        = (.ok settled, { s with mailbox := mailbox })
      ∧ ∃ e, s.handed = e :: handed ∧ HasLeft M e mailbox := by
  obtain ⟨c, hc, hlive⟩ := h.live
  obtain ⟨e, hid, hclaim, hhanded⟩ := id h
  rcases failOrRetry_run hhanded.keyed hc hlive config.mailbox reason
    (some run.registration.retryMaxAttempts) a.now a.backoffEnd a.tempId with
    ⟨settled, mailbox, hrun, -, hleft, -⟩ | ⟨hfree, -⟩
  · refine ⟨settled, mailbox, ?_, h.left M hc hleft⟩
    unfold failWork onMailbox
    rw [run_within_of_ok hrun]
  · rw [hid] at hfree
    exact absurd hfree hhanded.free

theorem settleClaim_run {run : RunFrame} (h : Owed M handed run s)
    (status : String) (a : Answers) :
    ∃ settled mailbox,
      (settleClaim M.toTeammateMailbox config run status a).run s
        = (.ok settled, { s with mailbox := mailbox })
      ∧ ∃ e, s.handed = e :: handed ∧ HasLeft M e mailbox := by
  unfold settleClaim
  split
  · obtain ⟨c, hc, hlive⟩ := h.live
    obtain ⟨e, hid, hclaim, hhanded⟩ := id h
    have hmove := (M.delivers.rules s.mailbox run.claimed.messageId c
      hhanded.keyed.labelled hlive).move
      (run.claimed.withTerminal .done none a.now) .done rfl hc
    exact ⟨_, _, run_bind_of_ok (run_within_of_ok hmove),
      h.left M hc (left_settle _ _ _ (by decide) _)⟩
  · obtain ⟨settled, mailbox, hrun, hleft⟩ := failWork_run M config h status a
    exact ⟨_, mailbox, run_bind_of_ok hrun, hleft⟩

theorem failRun_settles {run : RunFrame} (h : Owed M handed run s)
    (text : String) (a : Answers) :
    LastSettled M handed
      ((failRun M.toTeammateMailbox config run text a).run s).2 := by
  obtain ⟨settled, mailbox, hrun, e, hlast, hleft⟩ :=
    failWork_run M config h text a
  unfold failRun
  rw [run_bind_of_ok hrun]
  refine lastSettled_write M hlast hleft ⟨rfl, rfl, rfl⟩ ?_ ?_
  · refine apart_bind (apart_updateProjectionJob _ a) fun _ => ?_
    exact apart_bind (apart_setProjection _ _ _ _ _) fun _ => apart_pure _
  · refine keeps_bind (keeps_updateProjectionJob _ a) fun _ => ?_
    exact keeps_bind (keeps_setProjection _ _ _ _ _) fun _ => keeps_pure _

theorem detached_after (run : RunFrame) : Detached run.after := by
  unfold RunFrame.after
  split
  · exact ⟨rfl, rfl, rfl⟩
  · exact ⟨rfl, rfl, rfl⟩

theorem settleRun_settles {run : RunFrame} (h : Owed M handed run s)
    (status : String) (a : Answers) :
    LastSettled M handed
      ((settleRun M.toTeammateMailbox config run status a).run s).2 := by
  obtain ⟨settled, mailbox, hrun, e, hlast, hleft⟩ :=
    settleClaim_run M config h status a
  unfold settleRun
  rw [run_bind_of_ok hrun]
  refine lastSettled_write M hlast hleft (detached_after run) ?_ ?_
  · refine apart_bind (apart_updateProjectionJob _ a) fun _ => ?_
    exact apart_bind (apart_setProjection _ _ _ _ _) fun _ => apart_pure _
  · refine keeps_bind (keeps_updateProjectionJob _ a) fun _ => ?_
    exact keeps_bind (keeps_setProjection _ _ _ _ _) fun _ => keeps_pure _

-- =========== abandoned

/-- The service when `recover` has returned. -/
def whenRecovered : Except ServiceError (Progress
    (List TeammateRecoveryResult) RecoverFrame) × Service ι κ →
    Option (Service ι κ)
  | (.ok (.ended _), s) => some s
  | _ => none

def Unprepared (M : TeammateMailbox ι κ) (config : OrchestrationConfig)
    (a : Answers) (point : Option (Service ι κ)) : Prop :=
  ∃ s registration e u, point = some s
    ∧ (claimWork M config a).run s = (.ok (.handed registration e), u)
    ∧ ¬ Prepares config registration e a

/-- The steps that leave a claim behind. -/
def Abandons (M : TeammateMailbox ι κ) (config : OrchestrationConfig)
    (t : WorkCall ι κ) : CallEvent → Prop
  | .start a =>
    Unprepared M config a
      (if t.service.recovered then some t.service
      else whenRecovered ((recover M config a).run t.service))
  | .resume a =>
    match t.stage with
    | .waiting (.recovering frame) =>
      Unprepared M config a
        (whenRecovered ((resumeRecover M config frame a).run t.service))
    | .waiting (.dispatching _) => a.dispatchPrepared = .error .cancelled
    | _ => False
  | _ => False

-- ======== good and bad

/-- What holds while the call waits at a frame. -/
def FrameGood (handed : List MailboxEnvelope) (s : Service ι κ) :
    ProcessFrame → Prop
  | .recovering frame => Orderly M handed s
      ∧ Pending M (frame.envelope :: frame.remaining) s
  | .completing _ _ => Closed M handed s
  | .dispatching run => Owed M handed run s
  | .notifyingFailure _ _ => LastSettled M handed s
  | .stoppingHeartbeat run (.ok _) => Owed M handed run s
  | .stoppingHeartbeat _ (.error _) => LastSettled M handed s
  | .notifying _ _ => LastSettled M handed s

def Good (handed : List MailboxEnvelope) (t : WorkCall ι κ) : Prop :=
  match t.stage with
  | .ready => Orderly M handed t.service
  | .waiting frame => FrameGood M handed t.service frame
  | .ended => Closed M handed t.service

/-- The call is over, or bound to end, with its claim still there. -/
def Bad (handed : List MailboxEnvelope) (t : WorkCall ι κ) : Prop :=
  LeftBehind M handed t.service
    ∧ (t.stage = .ended ∨ ∃ run error,
      t.stage = .waiting (.stoppingHeartbeat run (.error error)))

theorem not_bad_of_good (h : Good M handed t) : ¬ Bad M handed t := by
  intro hbad
  obtain ⟨⟨e, hlast, hlive⟩, hstage⟩ := hbad
  have hclosed : Closed M handed t.service := by
    unfold Good at h
    rcases hstage with hstage | ⟨run, error, hstage⟩
    · rw [hstage] at h
      exact h
    · rw [hstage] at h
      exact Or.inr h
  rcases hclosed with hnone | ⟨e', hlast', hleft, -⟩
  · rw [hlast] at hnone
    exact absurd (congrArg List.length hnone) (by simp)
  · rw [hlast] at hlast'
    cases hlast'
    exact hleft.not_live hlive

/-- A step that is good, or that leaves the claim behind just when it
abandons it. -/
def Settles (handed : List MailboxEnvelope) (abandons : Prop)
    (t : WorkCall ι κ) : Prop :=
  (¬ abandons → Good M handed t) ∧ (abandons → Bad M handed t)

variable {M} in
theorem Settles.of_good {abandons : Prop} (h : Good M handed t)
    (hnot : ¬ abandons) : Settles M handed abandons t :=
  ⟨fun _ => h, fun habandons => absurd habandons hnot⟩

theorem claimAndPrepare_settles {a : Answers} (hs : Orderly M handed s) :
    Settles M handed (Unprepared M.toTeammateMailbox config a (some s))
      (WorkCall.go ⟨s, .ready⟩
        (claimAndPrepare M.toTeammateMailbox config a)) := by
  have hclaim := claimWork_ensures M config a hs
  unfold Method.Ensures at hclaim
  unfold WorkCall.go claimAndPrepare
  cases hrun : (claimWork M.toTeammateMailbox config a).run s with
  | mk r t =>
    rw [hrun] at hclaim
    rcases hclaim with ⟨hnone, hnot⟩ | ⟨registration, e, hr, hhanded⟩
    · refine Settles.of_good ?_ fun hex => ?_
      · cases r with
        | error error =>
          rw [run_bind_of_error hrun]
          exact Or.inl hnone
        | ok claiming =>
          rw [run_bind_of_ok hrun]
          cases claiming with
          | handed registration e => exact absurd rfl (hnot registration e)
          | nothing frame =>
            cases frame with
            | none => exact Or.inl hnone
            | some frame => exact Or.inl hnone
      · obtain ⟨s', registration, e, u, hs', heq, -⟩ := hex
        cases hs'
        rw [hrun] at heq
        cases heq
        exact absurd rfl (hnot registration e)
    · dsimp only at hr
      subst hr
      rw [run_bind_of_ok hrun]
      obtain ⟨hok, herror⟩ :=
        prepareRun_ensures M config registration a hhanded
      by_cases hprep : Prepares config registration e a
      · refine Settles.of_good ?_ fun hex => ?_
        · obtain ⟨run, hrun', howed⟩ := hok hprep
          cases hprepare : (prepareRun M.toTeammateMailbox config
              registration e a).run t with
          | mk r' u =>
            rw [hprepare] at hrun' howed
            dsimp only at hrun'
            subst hrun'
            dsimp only
            rw [run_bind_of_ok hprepare]
            exact howed
        · obtain ⟨s', registration', e', u', hs', heq, hnot⟩ := hex
          cases hs'
          rw [hrun] at heq
          cases heq
          exact hnot hprep
      · refine ⟨fun hnot => absurd ⟨s, registration, e, t, rfl, hrun, hprep⟩
          hnot, fun _ => ?_⟩
        obtain ⟨⟨error, hr'⟩, hleft⟩ := herror hprep
        cases hprepare : (prepareRun M.toTeammateMailbox config registration
            e a).run t with
        | mk r' u =>
          rw [hprepare] at hr' hleft
          dsimp only at hr'
          subst hr'
          dsimp only
          rw [run_bind_of_error hprepare]
          exact ⟨hleft, Or.inl rfl⟩

/-- `recover`, as it was called or after an await, and what follows it. -/
theorem afterRecover_settles {a : Answers}
    {m : Call ι κ (Progress (List TeammateRecoveryResult) RecoverFrame)}
    (h : m.Ensures s fun r t => t.handed = handed ∧ ∀ progress,
      r = .ok progress → Orderly M handed t ∧ ∀ next,
        progress = .waiting next →
          Pending M (next.envelope :: next.remaining) t) :
    Settles M handed
      (Unprepared M.toTeammateMailbox config a (whenRecovered (m.run s)))
      (WorkCall.go ⟨s, .ready⟩
        (m >>= afterRecover M.toTeammateMailbox config a)) := by
  unfold Method.Ensures at h
  unfold WorkCall.go
  cases hrun : m.run s with
  | mk r t =>
    rw [hrun] at h
    obtain ⟨hnone, hok⟩ := h
    cases r with
    | error error =>
      dsimp only
      rw [run_bind_of_error hrun]
      refine Settles.of_good (Or.inl hnone) fun hex => ?_
      obtain ⟨t', registration, e, u, hwhen, -⟩ := hex
      cases hwhen
    | ok progress =>
      dsimp only
      rw [run_bind_of_ok hrun]
      obtain ⟨ht, hpending⟩ := hok progress rfl
      cases progress with
      | ended result => exact claimAndPrepare_settles M config ht
      | waiting next =>
        refine Settles.of_good ⟨ht, hpending next rfl⟩ fun hex => ?_
        obtain ⟨t', registration, e, u, hwhen, -⟩ := hex
        cases hwhen

theorem start_settles (a : Answers) (hs : Orderly M handed t.service) :
    Settles M handed (Abandons M.toTeammateMailbox config t (.start a))
      (t.go (processNextWorkItem M.toTeammateMailbox config a)) := by
  show Settles M handed (Unprepared _ config a (if _ then _ else _)) _
  unfold WorkCall.go processNextWorkItem
  rw [run_read_bind]
  by_cases hrecovered : t.service.recovered = true
  · rw [if_pos hrecovered, if_pos hrecovered]
    exact claimAndPrepare_settles M config hs
  · rw [if_neg hrecovered, if_neg hrecovered]
    refine afterRecover_settles M config (m := recover _ config a) ?_
    refine (recover_ensures M config a hs).mono fun r u hu => ?_
    refine ⟨hu.1.2, fun progress hr => ⟨hu.1, fun next hnext => ?_⟩⟩
    rw [hnext] at hr
    exact hu.2 next hr

-- ====== after an await

theorem good_of_closing {m : Call ι κ (Option CompleteFrame)}
    (result : Option String) (h : Closed M handed s) (hm : Apart m)
    (hkeeps : Keeps Detached (fun _ => True) m) :
    Good M handed (WorkCall.go ⟨s, .ready⟩
      (m >>= fun frame => pure (afterShutdown result frame))) := by
  have hclosed := h.run hm hkeeps
  unfold WorkCall.go
  cases hrun : m.run s with
  | mk r t =>
    rw [hrun] at hclosed
    cases r with
    | error error =>
      dsimp only
      rw [run_bind_of_error hrun]
      exact hclosed
    | ok frame =>
      dsimp only
      rw [run_bind_of_ok hrun]
      cases frame with
      | none => exact hclosed
      | some frame => exact hclosed

theorem notifying_good {run : RunFrame} (status : String) (a : Answers)
    (h : LastSettled M handed s) :
    Good M handed (WorkCall.go ⟨s, .ready⟩
      (endRun M.toTeammateMailbox config run status a)) := by
  unfold endRun
  cases a.returned with
  | error error => exact Or.inr h
  | ok u =>
    cases hid : run.snapshot.shutdownWorkflowId with
    | none => exact Or.inr h
    | some workflowId =>
      exact good_of_closing M (some status) (Or.inr h)
        (apart_completeShutdown _ config workflowId a)
        (keeps_detached_completeShutdown _ config workflowId a)

theorem failing_good {run : RunFrame} (text : String) (a : Answers)
    (h : Owed M handed run s) :
    Good M handed (WorkCall.go ⟨s, .ready⟩
      ((failRun M.toTeammateMailbox config run text a).tryExcept fun error =>
        pure (.waiting (.stoppingHeartbeat run (.error error))))) := by
  have hsettled := failRun_settles M config h text a
  unfold WorkCall.go Method.tryExcept
  dsimp only
  cases hrun : (failRun M.toTeammateMailbox config run text a).run s with
  | mk r t =>
    rw [hrun] at hsettled
    cases r with
    | error error => exact hsettled
    | ok progress =>
      rw [failRun_result M.toTeammateMailbox config hrun]
      exact hsettled

theorem settling_good {run : RunFrame} (status : String) (a : Answers)
    (h : Owed M handed run s) :
    Good M handed (WorkCall.go ⟨s, .ready⟩ (do
      let run ← settleRun M.toTeammateMailbox config run status a
      pure (.waiting (.notifying run status)))) := by
  have hsettled := settleRun_settles M config h status a
  unfold WorkCall.go
  cases hrun : (settleRun M.toTeammateMailbox config run status a).run s with
  | mk r t =>
    rw [hrun] at hsettled
    cases r with
    | error error =>
      rw [run_bind_of_error hrun]
      exact Or.inr hsettled
    | ok run =>
      rw [run_bind_of_ok hrun]
      exact hsettled

variable {M} in
theorem Owed.leftBehind {run : RunFrame} (h : Owed M handed run s) :
    LeftBehind M handed s := by
  obtain ⟨e, -, -, hhanded⟩ := h
  exact hhanded.leftBehind

theorem resume_settles (a : Answers) {frame : ProcessFrame}
    (hstage : t.stage = .waiting frame)
    (h : FrameGood M handed t.service frame) :
    Settles M handed (Abandons M.toTeammateMailbox config t (.resume a))
      (t.go (Service.resume M.toTeammateMailbox config frame a)) := by
  unfold Abandons
  rw [hstage]
  cases frame with
  | recovering frame =>
    obtain ⟨hs, hpending⟩ := h
    exact afterRecover_settles M config (m := resumeRecover _ config frame a)
      (resumeRecover_ensures M config a hs hpending)
  | completing frame result =>
    exact .of_good (good_of_closing M result h
      (apart_resumeComplete config frame a)
      (keeps_detached_resumeComplete config frame a)) id
  | dispatching run =>
    dsimp only
    unfold Service.resume
    cases hdispatch : a.dispatchPrepared with
    | ok status =>
      refine .of_good ?_ fun habandons => nomatch habandons
      exact h
    | error thrown =>
      cases thrown with
      | cancelled =>
        refine ⟨fun hnot => absurd rfl hnot, fun _ => ⟨?_, Or.inr ?_⟩⟩
        · exact h.leftBehind
        · exact ⟨run, _, rfl⟩
      | exception text =>
        refine .of_good ?_ fun habandons => nomatch habandons
        exact failing_good M config text a h
  | notifyingFailure run error =>
    refine .of_good ?_ id
    unfold Service.resume
    dsimp only
    cases answered a.returned with
    | ok u => exact h
    | error error => exact h
  | stoppingHeartbeat run outcome =>
    refine .of_good ?_ id
    cases outcome with
    | error error => exact Or.inr h
    | ok status => exact settling_good M config status a h
  | notifying run status =>
    exact .of_good (notifying_good M config status a h) id

-- =========== meanwhile

theorem LeftBehind.run (h : LeftBehind M handed s) (hm : Apart m) :
    LeftBehind M handed (m.run s).2 := by
  obtain ⟨e, hlast, hlive⟩ := h
  exact ⟨e, (hm s).2.trans hlast, (hm s).1 ▸ hlive⟩

/-- What touches neither the mailbox nor what is attached leaves the call
as it is. -/
theorem frameGood_run {frame : ProcessFrame} (h : FrameGood M handed s frame)
    (hm : Apart m) (hkeeps : Keeps Detached (fun _ => True) m) :
    FrameGood M handed (m.run s).2 frame := by
  cases frame with
  | recovering frame => exact ⟨h.1.of_apart (hm s), h.2.of_apart M (hm s).1⟩
  | completing frame result => exact h.run hm hkeeps
  | dispatching run => exact h.of_apart (hm s)
  | notifyingFailure run error => exact h.run hm hkeeps
  | stoppingHeartbeat run outcome =>
    cases outcome with
    | ok status => exact Owed.of_apart h (hm s)
    | error error => exact LastSettled.run h hm hkeeps
  | notifying run status => exact h.run hm hkeeps

theorem Owed.beat {run : RunFrame} (h : Owed M handed run s)
    (now : Datetime) :
    Owed M handed run ((beat M.toTeammateMailbox run now).run s).2 := by
  obtain ⟨c, hc, hlive⟩ := h.live
  obtain ⟨e, hid, hclaim, hhanded⟩ := h
  have hrules := M.delivers.rules s.mailbox run.claimed.messageId c
    hhanded.keyed.labelled hlive
  obtain ⟨f, hread, hfid, hfclaim⟩ := hrules.read
  have hupdate := hrules.update (f.withHeartbeat now) hfid hfclaim
  rw [run_beat, hc]
  unfold TeammateMailboxStore.heartbeat
  dsimp only [Option.getD_some]
  rw [run_bind_of_ok hread, hupdate, hid]
  exact ⟨e, hid, hclaim, hhanded.rewrite M (hclaim ▸ hc) (hfid.trans hid)
    hfclaim⟩

theorem LastSettled.beat {run : RunFrame} (h : LastSettled M handed s)
    (now : Datetime) :
    LastSettled M handed ((beat M.toTeammateMailbox run now).run s).2 := by
  obtain ⟨e, hlast, hleft, hdetached⟩ := h
  rw [run_beat]
  exact ⟨e, hlast, hleft.of_same (M.beats _ _ now s.mailbox),
    hdetached.held, hdetached.stored, trivial⟩

theorem LeftBehind.beat {run : RunFrame} (h : LeftBehind M handed s)
    (now : Datetime) :
    LeftBehind M handed ((beat M.toTeammateMailbox run now).run s).2 := by
  obtain ⟨e, hlast, hlive⟩ := h
  rw [run_beat]
  exact ⟨e, hlast, hlive.of_same (M.beats _ _ now s.mailbox)⟩

theorem frameGood_beat {frame : ProcessFrame} {run : RunFrame}
    (hrun : frame.beating = some run) (h : FrameGood M handed s frame)
    (now : Datetime) :
    FrameGood M handed ((beat M.toTeammateMailbox run now).run s).2
      frame := by
  cases frame with
  | dispatching run =>
    cases hrun
    exact Owed.beat M h now
  | notifyingFailure run error => exact LastSettled.beat M h now
  | stoppingHeartbeat run outcome =>
    cases hrun
    cases outcome with
    | ok status => exact Owed.beat M h now
    | error error => exact LastSettled.beat M h now
  | _ => cases hrun

-- =============== steps

theorem good_meanwhile (ht : Good M handed t) (h : t.meanwhile m = some t')
    (hm : Apart m) (hkeeps : Keeps Detached (fun _ => True) m) :
    Good M handed t' := by
  obtain ⟨⟨frame, hstage⟩, rfl⟩ := meanwhile_eq_some h
  unfold Good at ht ⊢
  dsimp only
  rw [hstage] at ht ⊢
  exact frameGood_run M ht hm hkeeps

theorem step_settles {event : CallEvent} (ht : Good M handed t)
    (hstep : (callSystem M.toTeammateMailbox config).step t event = some t') :
    Settles M handed (Abandons M.toTeammateMailbox config t event) t' := by
  cases event with
  | start a =>
    cases hstage : t.stage with
    | ready =>
      unfold Good at ht
      rw [hstage] at ht
      have hgo : some (t.go (processNextWorkItem M.toTeammateMailbox
          config a)) = some t' := by
        rw [← hstep]
        unfold callSystem
        dsimp only
        rw [hstage]
      rw [← Option.some.inj hgo]
      exact start_settles M config a ht
    | _ =>
      unfold callSystem at hstep
      dsimp only at hstep
      rw [hstage] at hstep
      cases hstep
  | resume a =>
    unfold callSystem at hstep
    dsimp only at hstep
    cases hstage : t.stage with
    | waiting frame =>
      unfold Good at ht
      rw [hstage] at ht hstep
      cases hstep
      exact resume_settles M config a hstage ht
    | _ =>
      rw [hstage] at hstep
      cases hstep
  | beginShutdown workflowId a =>
    exact .of_good (good_meanwhile M ht hstep
      (apart_beginShutdown _ config workflowId a)
      (keeps_detached_beginShutdown _ config workflowId a)) id
  | enterPermissionWait permissionId a =>
    exact .of_good (good_meanwhile M ht hstep
      (apart_enterPermissionWait _ permissionId a)
      (keeps_enterPermissionWait _ (fun _ _ h => h) permissionId a)) id
  | exitPermissionWait permissionId a =>
    exact .of_good (good_meanwhile M ht hstep
      (apart_exitPermissionWait _ permissionId a)
      (keeps_exitPermissionWait _ (fun _ h => h) permissionId a)) id
  | beat now =>
    refine .of_good ?_ id
    unfold callSystem at hstep
    dsimp only at hstep
    cases hstage : t.stage with
    | waiting frame =>
      unfold Good at ht
      rw [hstage] at ht hstep
      obtain ⟨run, hrun, hbeat⟩ := Option.bind_eq_some_iff.1 hstep
      obtain ⟨-, rfl⟩ := meanwhile_eq_some hbeat
      unfold Good
      dsimp only
      rw [hstage]
      exact frameGood_beat M hrun ht now
    | _ =>
      rw [hstage] at hstep
      cases hstep

theorem bad_meanwhile (ht : Bad M handed t) (h : t.meanwhile m = some t')
    (hleft : LeftBehind M handed (m.run t.service).2) : Bad M handed t' := by
  obtain ⟨-, rfl⟩ := meanwhile_eq_some h
  exact ⟨hleft, ht.2⟩

theorem step_bad {t t' : WorkCall ι κ} {event : CallEvent}
    (ht : Bad M handed t)
    (hstep : (callSystem M.toTeammateMailbox config).step t event = some t') :
    Bad M handed t' := by
  cases event with
  | start a =>
    unfold callSystem at hstep
    dsimp only at hstep
    rcases ht.2 with hstage | ⟨run, error, hstage⟩
    · rw [hstage] at hstep
      cases hstep
    · rw [hstage] at hstep
      cases hstep
  | resume a =>
    unfold callSystem at hstep
    dsimp only at hstep
    rcases ht.2 with hstage | ⟨run, error, hstage⟩
    · rw [hstage] at hstep
      cases hstep
    · rw [hstage] at hstep
      cases hstep
      exact ⟨ht.1, Or.inl rfl⟩
  | beginShutdown workflowId a =>
    exact bad_meanwhile M ht hstep
      (ht.1.run M (apart_beginShutdown _ config workflowId a))
  | enterPermissionWait permissionId a =>
    exact bad_meanwhile M ht hstep
      (ht.1.run M (apart_enterPermissionWait _ permissionId a))
  | exitPermissionWait permissionId a =>
    exact bad_meanwhile M ht hstep
      (ht.1.run M (apart_exitPermissionWait _ permissionId a))
  | beat now =>
    unfold callSystem at hstep
    dsimp only at hstep
    rcases ht.2 with hstage | ⟨run, error, hstage⟩
    · rw [hstage] at hstep
      cases hstep
    · rw [hstage] at hstep
      exact bad_meanwhile M ht hstep (ht.1.beat M now)

/-- When a call of `process_next_work_item` has ended that was handed an
item, the item is settled just when no step of the call abandoned it. -/
theorem claimed_item_settled_iff (hs : Keyed M.inboxKey M.key s.mailbox)
    {events : List CallEvent} {t : WorkCall ι κ}
    (hrun : (callSystem M.toTeammateMailbox config).run ⟨s, .ready⟩ events
      = some t) (hended : t.stage = .ended) {e : MailboxEnvelope}
    (hlast : t.service.handed = e :: s.handed) :
    Settled M e t.service
      ↔ ∀ u event u', (callSystem M.toTeammateMailbox config).Takes
        ⟨s, .ready⟩ events u event u' →
        ¬ Abandons M.toTeammateMailbox config u event := by
  have hiff := System.run_iff_takes (A := Good M s.handed)
    (B := Bad M s.handed)
    (G := fun u event => ¬ Abandons M.toTeammateMailbox config u event)
    (fun u event u' hu hstep hnot => (step_settles M config hu hstep).1 hnot)
    (fun u event u' hu hstep hnot => (step_settles M config hu hstep).2
      (not_not.1 hnot))
    (fun u event u' hu hstep => step_bad M config hu hstep)
    (fun u hu => not_bad_of_good M hu)
    (show Good M s.handed ⟨s, .ready⟩ from ⟨hs, rfl⟩) hrun
  rw [← hiff]
  unfold Good
  rw [hended]
  refine ⟨fun hsettled => Or.inr ⟨e, hlast, hsettled⟩, fun hclosed => ?_⟩
  rcases hclosed with hnone | ⟨e', hlast', hsettled⟩
  · rw [hlast] at hnone
    exact absurd (congrArg List.length hnone) (by simp)
  · rw [hlast] at hlast'
    cases hlast'
    exact hsettled

end Recover

-- ==== a run that settles

private def handedOne (t : WorkCall UuidHex (UuidHex × String)) : Bool :=
  match t.stage, t.service.handed with
  | .ended, [_] => true
  | _, _ => false

private theorem handedOne_elim {t : WorkCall UuidHex (UuidHex × String)}
    (h : handedOne t = true) :
    t.stage = .ended ∧ ∃ e, t.service.handed = [e] := by
  unfold handedOne at h
  cases hstage : t.stage with
  | ended =>
    rw [hstage] at h
    cases hhanded : t.service.handed with
    | nil =>
      rw [hhanded] at h
      cases h
    | cons e rest =>
      cases rest with
      | nil => exact ⟨rfl, e, rfl⟩
      | cons f rest =>
        rw [hhanded] at h
        cases h
  | _ =>
    rw [hstage] at h
    cases h

private theorem keyed_empty : Keyed id Prod.mk
    (MailboxState.init : InMemoryMailbox) :=
  Sound.keyed Sound.init

private theorem keyed_sample (payload : Jobs.Fields) :
    Keyed id Prod.mk (sampleService payload).mailbox := by
  refine ⟨fun k e he => ?_, fun k e he => nomatch he⟩
  replace he : (Dict.empty.insert sampleItem.messageId
    { sampleItem with payload := payload }).get? k = some e := he
  rw [Dict.get?_insert] at he
  split at he
  · next hk =>
    cases he
    exact hk
  · cases he

theorem claimed_item_settled_sample : ∃ t e,
    (callSystem InMemory.mailbox sampleOrchestration).run
      ⟨sampleService [(.str "prompt", .str "go")], .ready⟩
      [.start sampleAnswers, .resume sampleAnswers, .resume sampleAnswers,
        .resume sampleAnswers] = some t
    ∧ t.stage = .ended ∧ t.service.handed = [e]
    ∧ (Settled InMemory.lawful e t.service
      ↔ ∀ u event u', (callSystem InMemory.mailbox sampleOrchestration).Takes
        ⟨sampleService [(.str "prompt", .str "go")], .ready⟩
        [.start sampleAnswers, .resume sampleAnswers, .resume sampleAnswers,
          .resume sampleAnswers] u event u' →
        ¬ Abandons InMemory.mailbox sampleOrchestration u event) := by
  have htest : ((callSystem InMemory.mailbox sampleOrchestration).run
      ⟨sampleService [(.str "prompt", .str "go")], .ready⟩
      [.start sampleAnswers, .resume sampleAnswers, .resume sampleAnswers,
        .resume sampleAnswers]).any handedOne = true := by
    decide +kernel
  obtain ⟨t, hrun, hone⟩ := (Option.any_eq_true ..).1 htest
  obtain ⟨hended, e, hhanded⟩ := handedOne_elim hone
  exact ⟨t, e, hrun, hended, hhanded, claimed_item_settled_iff
    InMemory.lawful sampleOrchestration (keyed_sample _) hrun hended hhanded⟩

def blankItem : WorkItem where
  prompt := ""
  sender := sampleItem.sender
  kind := "work"
  correlationId := none
  payload := []
  payloadRef := none
  requestedModelRoute := none
  requestedModel := none
  requestedEffort := none
  requestedPermissionMode := none
  requestedIsolation := none
  maxTurns := none

private def publishedBlank :
    Except ServiceError MailboxEnvelope × Service UuidHex (UuidHex × String) :=
  (publishWorkItem InMemory.mailbox sampleOrchestration blankItem
    sampleItem.messageId sampleItem.messageId sampleAnswers).run
      { sampleService [] with mailbox := .init }

/-- The item is published and handed out, the request cannot be made, and
the claim stays. -/
theorem blank_prompt_leaves_claim : ¬ ∀ (s s' : Service UuidHex
    (UuidHex × String)) item messageId correlationId a published events t e,
    Keyed id Prod.mk s.mailbox →
    (publishWorkItem InMemory.mailbox sampleOrchestration item messageId
      correlationId a).run s = (.ok published, s') →
    (callSystem InMemory.mailbox sampleOrchestration).run ⟨s', .ready⟩ events
      = some t → t.stage = .ended → t.service.handed = e :: s'.handed →
    Settled InMemory.lawful e t.service := by
  intro hall
  have hpublished : (publishedBlank.1.isOk
      && publishedBlank.2.handed.isEmpty) = true := by
    decide +kernel
  have htest : ((callSystem InMemory.mailbox sampleOrchestration).run
      ⟨publishedBlank.2, .ready⟩ [.start sampleAnswers]).any (fun t =>
        handedOne t && t.service.handed.all fun e => e.claimId.any fun c =>
          t.service.mailbox.claimed.contains (e.messageId, c)) = true := by
    decide +kernel
  obtain ⟨t, hrun, htest⟩ := (Option.any_eq_true ..).1 htest
  obtain ⟨hone, hlive⟩ := (Bool.and_eq_true ..).mp htest
  obtain ⟨hended, e, hhanded⟩ := handedOne_elim hone
  obtain ⟨hok, hnone⟩ := (Bool.and_eq_true ..).mp hpublished
  cases hpublish : publishedBlank with
  | mk r s' =>
    rw [hpublish] at hok hnone hrun
    cases r with
    | error error => cases hok
    | ok published =>
      have hlast : t.service.handed = e :: s'.handed := by
        rw [List.isEmpty_iff.1 hnone]
        exact hhanded
      have hsettled := hall { sampleService [] with mailbox := .init } s'
        blankItem sampleItem.messageId sampleItem.messageId sampleAnswers
        published _ t e keyed_empty hpublish hrun hended hlast
      rw [hhanded, List.all_cons, List.all_nil, Bool.and_true] at hlive
      obtain ⟨c, hc, hcontains⟩ := (Option.any_eq_true ..).1 hlive
      exact hsettled.left.not_live ⟨c, hc, hcontains⟩

end Service

end WeaveRuntime.Teammates
