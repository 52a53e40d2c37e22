/-
A shutdown request and what becomes of it.

`begin_shutdown` writes the request into the snapshot. Every other method
that writes a snapshot makes it from one it read, and the question is how
old that one is: `Carries` says of the two snapshots that are there what
holds of all of them, and a method that makes its snapshot from the one
there keeps it (`keeps_*`). A method that waits in between holds an old one
in its frame.

# Where a request is lost

`Overwrites` lists the steps that write a snapshot without the request: a
run that ends (`run.snapshot` is from before the dispatch), a claim that
`recover` gives back, a shutdown that another workflow asked for. Every
other step keeps the request, and no item is claimed while it is there.
-/
import WeaveRuntime.Lib.System
import WeaveRuntime.Teammates.Fencing
import WeaveRuntime.Teammates.Service

namespace WeaveRuntime.Teammates

open Lib
open Python
open Method (evolves_bind evolves_lift evolves_pure evolves_read
  evolves_tryExcept evolves_within evolves_write run_bind_of_error
  run_bind_of_ok run_lift run_read_bind state_bind_pure)

namespace Service

variable {ι κ α β : Type}

-- ============= carries

/-- What holds of the snapshots that are there, and of what was handed
out. -/
structure Carries (Q : TeammateStateSnapshot → Prop)
    (H : List MailboxEnvelope → Prop) (s : Service ι κ) : Prop where
  held : ∃ found, s.held = some found ∧ Q found
  stored : ∃ found, s.stateFile = some found ∧ Q found
  handed : H s.handed

/-- The method keeps what holds of the snapshots. -/
def Keeps (Q : TeammateStateSnapshot → Prop)
    (H : List MailboxEnvelope → Prop) (m : Call ι κ α) : Prop :=
  m.Evolves fun s t => Carries Q H s → Carries Q H t

variable {Q : TeammateStateSnapshot → Prop}
  {H : List MailboxEnvelope → Prop}

theorem keeps_pure (a : α) : Keeps Q H (pure a : Call ι κ α) :=
  evolves_pure (fun _ h => h) a

theorem keeps_read (f : Service ι κ → α) :
    Keeps Q H (Method.read f : Call ι κ α) :=
  evolves_read (fun _ h => h) f

theorem keeps_lift (x : Except ServiceError α) :
    Keeps Q H (Method.lift x : Call ι κ α) :=
  evolves_lift (fun _ h => h) x

variable {a : Answers} {f : α → Call ι κ β} {found : TeammateStateSnapshot}
  {frame : RecoverFrame} {m : Call ι κ α} {next : TeammateStateSnapshot}
  {run : RunFrame}

theorem keeps_bind (hm : Keeps Q H m) (hf : ∀ a, Keeps Q H (f a)) :
    Keeps Q H (m >>= f) :=
  evolves_bind (fun _ _ _ h h' hs => h' (h hs)) hm hf

theorem keeps_onMailbox (m : Method (MailboxState ι κ) MailboxError α) :
    Keeps Q H (onMailbox m) :=
  evolves_within (fun _ _ hs => ⟨hs.held, hs.stored, hs.handed⟩) m

theorem keeps_writeSnapshot (h : Q next) :
    Keeps Q H (writeSnapshot next : Call ι κ Unit) :=
  evolves_write fun _ hs =>
    ⟨⟨next, rfl, h⟩, ⟨next, rfl, h⟩, hs.handed⟩

theorem keeps_setProjection (found : TeammateStateSnapshot)
    (taskId : Option String) (taskStatus : Option TaskStatus)
    (progress notification : Option String) :
    Keeps Q H (setProjection found taskId taskStatus progress notification :
      Call ι κ Unit) :=
  evolves_write fun _ hs => ⟨hs.held, hs.stored, hs.handed⟩

theorem keeps_updateProjectionJob (taskId : Option String) (a : Answers) :
    Keeps Q H (updateProjectionJob taskId a : Call ι κ Unit) := by
  cases taskId with
  | none => exact keeps_pure ()
  | some taskId => exact keeps_lift _

theorem keeps_reconcileProjectionJob (a : Answers) :
    Keeps Q H (reconcileProjectionJob a : Call ι κ (Option String)) :=
  keeps_bind (keeps_updateProjectionJob _ a) fun _ => keeps_pure _

theorem keeps_markRecovered :
    Keeps Q H (Method.write fun s : Service ι κ =>
      { s with recovered := true }) :=
  evolves_write fun _ hs => ⟨hs.held, hs.stored, hs.handed⟩

variable (M : TeammateMailbox ι κ) (config : OrchestrationConfig)

theorem keeps_restoreRegistration (found : TeammateStateSnapshot) :
    Keeps Q H (restoreRegistration config found : Call ι κ Unit) := by
  unfold restoreRegistration
  split
  · exact evolves_write fun _ hs => ⟨hs.held, hs.stored, hs.handed⟩
  · exact keeps_pure ()

theorem keeps_resolveRegistration :
    Keeps Q H (resolveRegistration M config) := by
  unfold resolveRegistration
  refine keeps_bind (keeps_read _) fun registration => ?_
  cases registration with
  | some registration => exact keeps_pure _
  | none =>
    refine keeps_bind (keeps_read _) fun stored => ?_
    refine keeps_bind (keeps_lift _) fun stored => ?_
    refine keeps_bind (keeps_restoreRegistration config stored) fun _ => ?_
    exact keeps_bind (keeps_read _) fun _ => keeps_lift _

theorem run_snapshot {s : Service ι κ} (h : s.held = some found) :
    (snapshot M).run s = (.ok (some found), s) := by
  unfold snapshot
  rw [run_read_bind, h]
  rfl

theorem keeps_snapshot_bind {f : Option TeammateStateSnapshot → Call ι κ β}
    (hf : ∀ found, Q found → Keeps Q H (f (some found))) :
    Keeps Q H (snapshot M >>= f) := by
  intro s hs
  obtain ⟨found, hfound, hQ⟩ := hs.held
  rw [run_bind_of_ok (run_snapshot M hfound)]
  exact hf found hQ s hs

-- ============= methods

theorem keeps_finishShutdown (h : Q found.stopped) :
    Keeps Q H (finishShutdown config found : Call ι κ Unit) :=
  keeps_bind (keeps_writeSnapshot h) fun _ =>
    keeps_bind (keeps_read _) fun _ => keeps_setProjection _ _ _ _ _

theorem keeps_completeShutdown (hQ : ∀ found, Q found → Q found.stopped)
    (workflowId : UuidHex) (a : Answers) :
    Keeps Q H (completeShutdown M config workflowId a) := by
  refine keeps_snapshot_bind M fun found hfound => ?_
  dsimp only
  split
  · cases a.shutdownWorkflow with
    | closed =>
      exact keeps_bind (keeps_finishShutdown config (hQ found hfound))
        fun _ => keeps_pure _
    | _ => exact keeps_pure _
  · exact keeps_pure _

theorem keeps_enterPermissionWait
    (hQ : ∀ found p, Q found → Q (found.waitingPermission p))
    (permissionId : String) (a : Answers) :
    Keeps Q H (enterPermissionWait M permissionId a) := by
  refine keeps_snapshot_bind M fun found hfound => ?_
  refine keeps_bind (evolves_write fun _ hs =>
    ⟨hs.held, hs.stored, hs.handed⟩) fun _ => ?_
  refine keeps_bind (keeps_writeSnapshot (hQ found _ hfound)) fun _ => ?_
  refine keeps_bind (keeps_read _) fun taskId => ?_
  exact keeps_bind (keeps_updateProjectionJob taskId a) fun _ =>
    keeps_setProjection _ _ _ _ _

theorem keeps_exitPermissionWait
    (hQ : ∀ found, Q found → Q found.resumeActive) (permissionId : String)
    (a : Answers) : Keeps Q H (exitPermissionWait M permissionId a) := by
  refine keeps_bind (evolves_write fun _ hs =>
    ⟨hs.held, hs.stored, hs.handed⟩) fun _ => ?_
  refine keeps_snapshot_bind M fun found hfound => ?_
  dsimp only
  split
  · refine keeps_bind (keeps_writeSnapshot (hQ found hfound)) fun _ => ?_
    refine keeps_bind (keeps_read _) fun taskId => ?_
    exact keeps_bind (keeps_updateProjectionJob taskId a) fun _ =>
      keeps_setProjection _ _ _ _ _
  · exact keeps_pure _

theorem keeps_projectRecovered (found : TeammateStateSnapshot)
    (taskId : Option String) (taskStatus : Option TaskStatus) :
    Keeps Q H (projectRecovered found taskId taskStatus : Call ι κ Unit) := by
  unfold projectRecovered
  split
  · exact keeps_setProjection _ _ _ _ _
  · split
    · exact keeps_setProjection _ _ _ _ _
    · exact keeps_pure _

theorem keeps_finishRecover (found : TeammateStateSnapshot)
    (taskId : Option String) (taskStatus : Option TaskStatus) :
    Keeps Q H (finishRecover found taskId taskStatus : Call ι κ Unit) :=
  keeps_bind (keeps_projectRecovered found taskId taskStatus) fun _ =>
    keeps_markRecovered

theorem keeps_hasLivePermissionWait (found : TeammateStateSnapshot)
    (a : Answers) :
    Keeps Q H (hasLivePermissionWait found a : Call ι κ Bool) := by
  unfold hasLivePermissionWait
  cases found.waitingPermissionId with
  | none => exact keeps_pure _
  | some permissionId => exact keeps_bind (keeps_read _) fun _ => keeps_pure _

/-- `recover` takes the snapshot of the state file, and resets it only if
it is not shutting down. -/
theorem keeps_recover (hread : ∀ found, Q found → Q (M.readState found))
    (hdown : ∀ found, Q found → found.shuttingDown = true) (a : Answers) :
    Keeps Q H (recover M config a) := by
  intro s hs
  obtain ⟨found, hfound, hQ⟩ := hs.stored
  unfold recover readState
  rw [run_read_bind, hfound]
  have hkeeps : Keeps Q H (recoverFrom M config (M.readState found) a) := by
    refine keeps_bind (evolves_write fun t ht => ?_) fun _ => ?_
    · exact ⟨⟨_, rfl, hread found hQ⟩, ht.stored, ht.handed⟩
    refine keeps_bind (keeps_restoreRegistration config _) fun _ => ?_
    refine keeps_bind (keeps_hasLivePermissionWait _ a) fun live => ?_
    refine keeps_bind (keeps_read _) fun claimed => ?_
    cases claimed with
    | cons envelope remaining => exact keeps_pure _
    | nil =>
      have hstate := hdown _ (hread found hQ)
      dsimp only
      rw [if_neg]
      · exact keeps_bind (keeps_finishRecover _ _ _) fun _ => keeps_pure _
      · intro hor
        unfold TeammateStateSnapshot.shuttingDown at hstate
        rcases hor with h | h | h
        all_goals
          rw [h] at hstate
          exact absurd hstate (by decide)
  exact hkeeps s hs

theorem keeps_failClaim (frame : RecoverFrame) (reason : String)
    (a : Answers) : Keeps Q H (failClaim M config frame reason a) :=
  keeps_bind (keeps_resolveRegistration M config) fun _ => keeps_onMailbox _

def Returns (m : Call ι κ α) (s : Service ι κ) : Prop :=
  ∃ x t, m.run s = (.ok x, t)

/-- A method goes on to what follows a call only where the call returns. -/
theorem carries_bind_of_not_returns (hm : Keeps Q H m) {s : Service ι κ}
    (hs : Carries Q H s) (h : ¬ Returns m s) :
    Carries Q H ((m >>= f).run s).2 := by
  have hkept := hm s hs
  cases hrun : m.run s with
  | mk r t =>
    rw [hrun] at hkept
    cases r with
    | ok x => exact absurd ⟨x, t, hrun⟩ h
    | error e =>
      rw [run_bind_of_error hrun]
      exact hkept

theorem carries_write_bind {f : Unit → Call ι κ β} {s : Service ι κ}
    (hQ : Q next) (hH : H s.handed) (hf : Keeps Q H (f ())) :
    Carries Q H ((writeSnapshot next >>= f).run s).2 :=
  hf _ ⟨⟨next, rfl, hQ⟩, ⟨next, rfl, hQ⟩, hH⟩

/-- The snapshot of the frame has the claim it is about. -/
def RecoverFrame.Attached (frame : RecoverFrame) : Prop :=
  frame.snapshot.currentMessageId = some frame.envelope.messageId

/-- Why the claim of the frame is given back, if it is. -/
def RecoverFrame.reason (frame : RecoverFrame) (activeRunLinked : Bool)
    (now : Datetime) : Option String :=
  if frame.waitingPermissionSnapshot && !frame.livePermissionWait
      && !activeRunLinked then some "lost_permission_wait"
  else
    match staleClaim frame.envelope activeRunLinked
      (frame.waitingPermissionSnapshot && frame.livePermissionWait) now with
    | .ok true => some "stale_claim"
    | _ => none

def Resets (frame : RecoverFrame) (a : Answers) (s : Service ι κ) : Prop :=
  RecoverFrame.Attached frame
    ∧ ∃ activeRunLinked reason, a.activeRunLinked = .ok activeRunLinked
      ∧ RecoverFrame.reason frame activeRunLinked a.now = some reason
      ∧ Returns (failClaim M config frame reason a) s
      ∧ (a.projectionJob = none ∨ a.updateJob = .ok ())

theorem returns_reconcile {s : Service ι κ} :
    Returns (reconcileProjectionJob a : Call ι κ (Option String)) s
      ↔ a.projectionJob = none ∨ a.updateJob = .ok () := by
  unfold reconcileProjectionJob updateProjectionJob
  cases a.projectionJob with
  | none => exact ⟨fun _ => Or.inl rfl, fun _ => ⟨_, _, rfl⟩⟩
  | some jobId =>
    dsimp only
    cases hupdate : a.updateJob with
    | ok u => exact ⟨fun _ => Or.inr rfl, fun _ => ⟨_, _, rfl⟩⟩
    | error e =>
      refine ⟨fun h => ?_, fun h => ?_⟩
      · obtain ⟨x, t, hrun⟩ := h
        cases hrun
      · rcases h with h | h
        · cases h
        · cases h

theorem carries_giveBack {reason : String} {s : Service ι κ}
    (hs : Carries Q H s) (h : ¬ (RecoverFrame.Attached frame
      ∧ Returns (failClaim M config frame reason a) s
      ∧ (a.projectionJob = none ∨ a.updateJob = .ok ()))) :
    Carries Q H ((giveBack M config frame reason a).run s).2 := by
  by_cases hfail : Returns (failClaim M config frame reason a) s
  · obtain ⟨settled, t, hrun⟩ := hfail
    have ht : Carries Q H t := by
      have hkept := keeps_failClaim M config frame reason a s hs
      rw [hrun] at hkept
      exact hkept
    unfold giveBack
    rw [run_bind_of_ok hrun]
    by_cases hjob : a.projectionJob = none ∨ a.updateJob = .ok ()
    · have hdetached : ¬ RecoverFrame.Attached frame :=
        fun hatt => h ⟨hatt, ⟨settled, t, hrun⟩, hjob⟩
      refine keeps_bind (keeps_reconcileProjectionJob a) (fun taskId => ?_) t ht
      refine keeps_bind ?_ fun _ => keeps_pure _
      have hdetach : (detach frame : Call ι κ TeammateStateSnapshot)
          = pure frame.snapshot := if_neg hdetached
      rw [hdetach]
      exact keeps_pure _
    · exact carries_bind_of_not_returns (keeps_reconcileProjectionJob a) ht
        (mt returns_reconcile.1 hjob)
  · exact carries_bind_of_not_returns
      (keeps_failClaim M config frame reason a) hs hfail

theorem carries_recoverClaim {s : Service ι κ} (hs : Carries Q H s)
    (h : ¬ Resets M config frame a s) :
    Carries Q H ((recoverClaim M config frame a).run s).2 := by
  unfold recoverClaim
  cases hlinked : a.activeRunLinked with
  | error e => exact hs
  | ok linked =>
    have hgive : ∀ reason, RecoverFrame.reason frame linked a.now
        = some reason →
        Carries Q H ((giveBack M config frame reason a).run s).2 := by
      intro reason hreason
      refine carries_giveBack M config hs fun hand => h ?_
      exact ⟨hand.1, linked, reason, hlinked, hreason, hand.2⟩
    unfold RecoverFrame.reason at hgive
    show Carries Q H (((if _ then _ else _ : Call ι κ RecoverFrame)).run
      s).2
    split
    · next hlost =>
      rw [if_pos hlost] at hgive
      exact hgive _ rfl
    · next hlost =>
      rw [if_neg hlost] at hgive
      cases hstale : staleClaim frame.envelope linked
        (frame.waitingPermissionSnapshot && frame.livePermissionWait)
        a.now with
      | error e =>
        rw [run_bind_of_error (run_lift _ _)]
        exact hs
      | ok stale =>
        rw [hstale] at hgive
        rw [run_bind_of_ok (run_lift _ _)]
        cases stale with
        | true => exact hgive _ rfl
        | false =>
          rw [if_neg Bool.false_ne_true]
          split
          · exact hs
          · exact hs

theorem carries_bind {s : Service ι κ} (hm : Carries Q H (m.run s).2)
    (hf : ∀ a, Keeps Q H (f a)) : Carries Q H ((m >>= f).run s).2 := by
  cases hrun : m.run s with
  | mk r t =>
    rw [hrun] at hm
    cases r with
    | ok x =>
      rw [run_bind_of_ok hrun]
      exact hf x t hm
    | error e =>
      rw [run_bind_of_error hrun]
      exact hm

theorem carries_of_resets {s : Service ι κ} (hQ : Q frame.snapshot.idle)
    (hH : ∀ l, H l) (h : Resets M config frame a s) :
    Carries Q H ((recoverClaim M config frame a).run s).2 := by
  obtain ⟨hatt, linked, reason, hlinked, hreason, hfail, hjob⟩ := h
  have hgive : Carries Q H ((giveBack M config frame reason a).run s).2 := by
    obtain ⟨settled, t, hrun⟩ := hfail
    obtain ⟨taskId, u, hu⟩ := returns_reconcile.2 hjob
    unfold giveBack
    rw [run_bind_of_ok hrun, run_bind_of_ok (hu : _ = (_, u))]
    refine carries_bind ?_ fun _ => keeps_pure _
    have hdetach : (detach frame : Call ι κ TeammateStateSnapshot)
        = (do
          writeSnapshot frame.snapshot.idle
          pure frame.snapshot.idle) := if_pos hatt
    rw [hdetach]
    exact carries_write_bind hQ (hH _) (keeps_pure _)
  unfold RecoverFrame.reason at hreason
  unfold recoverClaim
  rw [hlinked]
  show Carries Q H (((if _ then _ else _ : Call ι κ RecoverFrame)).run s).2
  split
  · next hlost =>
    rw [if_pos hlost] at hreason
    cases hreason
    exact hgive
  · next hlost =>
    rw [if_neg hlost] at hreason
    split at hreason
    · next hstale =>
      cases hreason
      rw [run_bind_of_ok (by rw [hstale, run_lift])]
      rw [if_pos rfl]
      exact hgive
    · cases hreason

-- ========== processing

section

variable (hstopped : ∀ found, Q found → Q found.stopped)
include hstopped

theorem keeps_stopInstead (existing : TeammateStateSnapshot) (a : Answers) :
    Keeps Q H (stopInstead M config existing a) := by
  unfold stopInstead
  cases existing.shutdownWorkflowId with
  | none => exact keeps_pure _
  | some workflowId =>
    dsimp only
    split
    · exact keeps_pure _
    · exact keeps_completeShutdown M config hstopped _ a

theorem keeps_nothingReady
    (hidle : ∀ found : TeammateStateSnapshot, Q found.idle) (a : Answers) :
    Keeps Q H (nothingReady M config a) := by
  refine keeps_snapshot_bind M fun found hfound => ?_
  refine keeps_bind (keeps_read _) fun activeClaims => ?_
  dsimp only
  split
  · refine keeps_bind (keeps_setProjection _ _ _ _ _) fun _ => ?_
    split
    · exact keeps_completeShutdown M config hstopped _ a
    · exact keeps_pure _
  · refine keeps_bind ?_ fun found => ?_
    · unfold settleIdle
      split
      · exact keeps_bind (keeps_writeSnapshot (hidle _)) fun _ => keeps_pure _
      · exact keeps_pure _
    · split
      · exact keeps_bind (keeps_setProjection _ _ _ _ _) fun _ =>
          keeps_pure _
      · exact keeps_pure _

theorem keeps_claimItem
    (hidle : ∀ found : TeammateStateSnapshot, Q found.idle) (hH : ∀ l, H l)
    (a : Answers) : Keeps Q H (claimItem M config a) := by
  refine keeps_bind (keeps_resolveRegistration M config) fun _ => ?_
  refine keeps_bind (keeps_onMailbox _) fun claimed => ?_
  cases claimed with
  | none =>
    exact keeps_bind (keeps_nothingReady M config hstopped hidle a)
      fun _ => keeps_pure _
  | some claimed =>
    exact keeps_bind (evolves_write fun _ hs =>
      ⟨hs.held, hs.stored, hH _⟩) fun _ => keeps_pure _

end

theorem keeps_prepareRun
    (hactivate : ∀ found m r c n i d l, Q found →
      Q ((found.activate m r c).withRegistration n i d l))
    (registration : TeammateRegistration) (claimed : MailboxEnvelope)
    (a : Answers) : Keeps Q H (prepareRun M config registration claimed a) := by
  refine keeps_bind (keeps_lift _) fun request => ?_
  refine keeps_bind (keeps_lift _) fun runId => ?_
  refine keeps_bind (keeps_onMailbox _) fun claimed => ?_
  refine keeps_snapshot_bind M fun found hfound => ?_
  refine keeps_bind (keeps_writeSnapshot (hactivate _ _ _ _ _ _ _ _ hfound))
    fun _ => ?_
  refine keeps_bind (keeps_lift _) fun taskId => ?_
  refine keeps_bind (keeps_updateProjectionJob _ a) fun _ => ?_
  exact keeps_bind (keeps_setProjection _ _ _ _ _) fun _ => keeps_pure _

theorem keeps_claimAndPrepare (hstopped : ∀ found, Q found → Q found.stopped)
    (hidle : ∀ found : TeammateStateSnapshot, Q found.idle)
    (hactivate : ∀ found m r c n i d l, Q found →
      Q ((found.activate m r c).withRegistration n i d l)) (hH : ∀ l, H l)
    (a : Answers) : Keeps Q H (claimAndPrepare M config a) := by
  refine keeps_bind ?_ fun claiming => ?_
  · refine keeps_snapshot_bind M fun existing _ => ?_
    split
    · exact keeps_bind (keeps_stopInstead M config hstopped _ a) fun _ =>
        keeps_pure _
    · exact keeps_claimItem M config hstopped hidle hH a
  · cases claiming with
    | nothing frame => exact keeps_pure _
    | handed registration claimed =>
      exact keeps_bind (keeps_prepareRun M config hactivate _ _ a)
        fun _ => keeps_pure _

theorem keeps_claimAndPrepare_down
    (hstopped : ∀ found, Q found → Q found.stopped)
    (hdown : ∀ found, Q found → found.shuttingDown = true) (a : Answers) :
    Keeps Q H (claimAndPrepare M config a) := by
  intro s hs
  obtain ⟨found, hfound, hQ⟩ := hs.held
  have hfilter : (some found).filter (·.shuttingDown) = some found := by
    rw [Option.filter_some, if_pos (hdown found hQ)]
  have hclaim : (claimWork M config a).run s
      = (do
        let frame ← stopInstead M config found a
        pure (Claiming.nothing frame) : Call ι κ Claiming).run s := by
    unfold claimWork
    rw [run_bind_of_ok (run_snapshot M hfound), hfilter]
  have hstop := keeps_stopInstead M config hstopped (H := H) found a s hs
  unfold claimAndPrepare
  cases hrun : (stopInstead M config found a).run s with
  | mk r t =>
    rw [hrun] at hstop
    cases r with
    | ok frame =>
      rw [run_bind_of_ok hrun] at hclaim
      rw [run_bind_of_ok hclaim]
      exact hstop
    | error e =>
      rw [run_bind_of_error hrun] at hclaim
      rw [run_bind_of_error hclaim]
      exact hstop

theorem keeps_afterRecover (h : Keeps Q H (claimAndPrepare M config a))
    (progress : Progress (List TeammateRecoveryResult) RecoverFrame) :
    Keeps Q H (afterRecover M config a progress) := by
  cases progress with
  | ended result => exact h
  | waiting frame => exact keeps_pure _

theorem keeps_nextClaim (claims : List MailboxEnvelope)
    (frame : RecoverFrame) :
    Keeps Q H (nextClaim claims frame : Call ι κ _) := by
  cases claims with
  | nil =>
    exact keeps_bind (keeps_finishRecover _ _ _) fun _ => keeps_pure _
  | cons envelope remaining => exact keeps_pure _

theorem keeps_failWork (run : RunFrame) (reason : String) (a : Answers) :
    Keeps Q H (failWork M config run reason a) :=
  keeps_onMailbox _

theorem keeps_settleClaim (run : RunFrame) (status : String) (a : Answers) :
    Keeps Q H (settleClaim M config run status a) := by
  unfold settleClaim
  split
  · exact keeps_bind (keeps_onMailbox _) fun _ => keeps_pure _
  · exact keeps_bind (keeps_failWork M config run status a) fun _ =>
      keeps_pure _

theorem keeps_tryExcept {f : ServiceError → Call ι κ α} (hm : Keeps Q H m)
    (hf : ∀ e, Keeps Q H (f e)) : Keeps Q H (m.tryExcept f) :=
  evolves_tryExcept (fun _ _ _ h h' hs => h' (h hs)) hm hf

theorem keeps_beat (run : RunFrame) (now : Datetime) :
    Keeps Q H (beat M run now) :=
  keeps_tryExcept (keeps_bind (keeps_onMailbox _) fun _ => keeps_pure _)
    fun _ => keeps_pure _

theorem keeps_publishWorkItem (item : WorkItem)
    (messageId correlationId : UuidHex) (a : Answers) :
    Keeps Q H (publishWorkItem M config item messageId correlationId a) :=
  keeps_bind (keeps_resolveRegistration M config) fun _ => keeps_onMailbox _

theorem state_tryExcept {f : ServiceError → α} (s : Service ι κ) :
    ((m.tryExcept fun e => pure (f e)).run s).2 = (m.run s).2 := by
  unfold Method.tryExcept
  dsimp only
  cases m.run s with
  | mk r t =>
    cases r with
    | ok x => rfl
    | error e => rfl

-- ========= the request

/-- The snapshot is asked to shut down by the workflow, and does. -/
def Requested (workflowId : UuidHex) (found : TeammateStateSnapshot) : Prop :=
  found.shutdownWorkflowId = some workflowId ∧ found.shuttingDown = true

theorem Requested.stopped {w : UuidHex}
    (h : found.shutdownWorkflowId = some w) : Requested w found.stopped :=
  ⟨h, rfl⟩

theorem Requested.waitingPermission {w : UuidHex} (p : String)
    (h : Requested w found) : Requested w (found.waitingPermission p) := by
  refine ⟨h.1, ?_⟩
  have hdown := h.2
  unfold TeammateStateSnapshot.shuttingDown at hdown ⊢
  unfold TeammateStateSnapshot.waitingPermission
  dsimp only
  rw [if_pos h.2]
  exact hdown

theorem Requested.resumeActive {w : UuidHex} (h : Requested w found) :
    Requested w found.resumeActive := by
  refine ⟨h.1, ?_⟩
  unfold TeammateStateSnapshot.resumeActive
  rw [h.1]
  rfl

theorem Requested.readState {w : UuidHex} (h : Requested w found) :
    Requested w (M.readState found) := by
  refine ⟨(M.shutdownWorkflowId_readState found).trans h.1, ?_⟩
  have hdown := h.2
  unfold TeammateStateSnapshot.shuttingDown at hdown ⊢
  rw [M.state_readState]
  exact hdown

/-- Another workflow, or none, asks the snapshot to shut down. -/
def Lost (workflowId : UuidHex) (found : TeammateStateSnapshot) : Prop :=
  found.shutdownWorkflowId ≠ some workflowId

/-- The claim: every stored snapshot is asked to shut down by the workflow,
and nothing was handed out since. -/
def ShutdownKept (workflowId : UuidHex) (handed : List MailboxEnvelope)
    (s : Service ι κ) : Prop :=
  Carries (Requested workflowId) (· = handed) s

theorem not_shutdownKept {w : UuidHex} {handed : List MailboxEnvelope}
    {s : Service ι κ} (h : Carries (Lost w) (fun _ => True) s) :
    ¬ ShutdownKept w handed s := by
  intro hkept
  obtain ⟨found, hfound, hreq⟩ := hkept.held
  obtain ⟨found', hfound', hlost⟩ := h.held
  rw [hfound] at hfound'
  cases hfound'
  exact hlost hreq.1

variable {w : UuidHex} {handed : List MailboxEnvelope} {s : Service ι κ}

theorem keeps_requested_claimAndPrepare (a : Answers) :
    Keeps (Requested w) H (claimAndPrepare M config a) :=
  keeps_claimAndPrepare_down M config (fun _ h => .stopped h.1)
    (fun _ h => h.2) a

/-- Once the request is lost, nothing the processor does brings it back. -/
theorem keeps_lost_claimAndPrepare (a : Answers) :
    Keeps (Lost w) (fun _ => True) (claimAndPrepare M config a) :=
  keeps_claimAndPrepare M config (fun _ h => h) (fun _ h => nomatch h)
    (fun _ _ _ _ _ _ _ _ h => h) (fun _ => trivial) a

theorem keeps_requested_recover (a : Answers) :
    Keeps (Requested w) H (recover M config a) :=
  keeps_recover M config (fun _ h => h.readState M) (fun _ h => h.2) a

theorem keeps_requested_processNextWorkItem (a : Answers) :
    Keeps (Requested w) H (processNextWorkItem M config a) := by
  refine keeps_bind (keeps_read _) fun recovered => ?_
  split
  · exact keeps_requested_claimAndPrepare M config a
  · exact keeps_bind (keeps_requested_recover M config a)
      (keeps_afterRecover M config (keeps_requested_claimAndPrepare M config a))

theorem resumeRecover_lost (h : Resets M config frame a s) :
    Carries (Lost w) (fun _ => True)
      ((resumeRecover M config frame a).run s).2 :=
  carries_bind (carries_of_resets M config (fun h => nomatch h)
    (fun _ => trivial) h) (keeps_nextClaim _)

theorem resumeRecover_kept (hs : ShutdownKept w handed s)
    (h : ¬ Resets M config frame a s) :
    ShutdownKept w handed ((resumeRecover M config frame a).run s).2 :=
  carries_bind (carries_recoverClaim M config hs h) (keeps_nextClaim _)

/-- The first `recover` of the processor, and the claim after it, keep the
request just when no snapshot is reset. -/
theorem recovering_kept_iff (hs : ShutdownKept w handed s) :
    ShutdownKept w handed ((resume M config (.recovering frame) a).run s).2
      ↔ ¬ Resets M config frame a s := by
  refine ⟨fun hkept hresets => ?_, fun hnot => ?_⟩
  · exact not_shutdownKept (carries_bind (resumeRecover_lost M config hresets)
      (keeps_afterRecover M config (keeps_lost_claimAndPrepare M config a)))
      hkept
  · exact carries_bind (resumeRecover_kept M config hs hnot)
      (keeps_afterRecover M config (keeps_requested_claimAndPrepare M config a))

/-- The steps of the processor that write a snapshot without the
request. -/
def ProcessFrame.Overwrites (w : UuidHex) (a : Answers) (s : Service ι κ) :
    ProcessFrame → Prop
  | .recovering frame => Resets M config frame a s
  | .completing frame _ =>
    a.returned = .ok () ∧ frame.acknowledging = false
      ∧ frame.snapshot.shutdownWorkflowId ≠ some w
  | .dispatching run =>
    ∃ text, a.dispatchPrepared = .error (.exception text)
      ∧ Returns (failWork M config run text a) s
  | .notifyingFailure _ _ => False
  | .stoppingHeartbeat run outcome =>
    ∃ status, outcome = .ok status
      ∧ Returns (settleClaim M config run status a) s
      ∧ run.snapshot.shutdownWorkflowId ≠ some w
  | .notifying _ _ => False

theorem completing_kept_iff {frame : CompleteFrame}
    {f : Option CompleteFrame → Processing} (hs : ShutdownKept w handed s) :
    ShutdownKept w handed
        ((resumeComplete config frame a >>= fun r => pure (f r)).run s).2
      ↔ ¬ (a.returned = .ok () ∧ frame.acknowledging = false
        ∧ frame.snapshot.shutdownWorkflowId ≠ some w) := by
  rw [state_bind_pure]
  unfold resumeComplete
  cases hreturned : a.returned with
  | error e =>
    exact iff_of_true hs fun h => nomatch h.1
  | ok u =>
    show ShutdownKept w handed (((if _ then _ else _ : Call ι κ _)).run
      s).2 ↔ _
    by_cases hack : frame.acknowledging = true
    · rw [if_pos hack, hack]
      exact iff_of_true hs fun h => nomatch h.2.1
    · rw [if_neg hack]
      by_cases hid : frame.snapshot.shutdownWorkflowId = some w
      · refine iff_of_true ?_ fun h => h.2.2 hid
        refine keeps_bind (Q := Requested w) ?_ (fun _ => keeps_pure _) s hs
        exact keeps_finishShutdown config (.stopped hid)
      · refine iff_of_false (not_shutdownKept ?_) (not_not.2
          ⟨rfl, (Bool.not_eq_true _).mp hack, hid⟩)
        refine carries_bind ?_ fun _ => keeps_pure _
        exact carries_write_bind hid trivial (keeps_bind (keeps_read _)
          fun _ => keeps_setProjection _ _ _ _ _)

theorem dispatching_kept_iff {text : String} (hs : ShutdownKept w handed s) :
    ShutdownKept w handed ((failRun M config run text a).run s).2
      ↔ ¬ Returns (failWork M config run text a) s := by
  refine ⟨fun hkept hreturns => ?_, fun hnot =>
    carries_bind_of_not_returns (keeps_failWork M config run text a) hs hnot⟩
  obtain ⟨settled, t, hrun⟩ := hreturns
  unfold failRun at hkept
  rw [run_bind_of_ok hrun] at hkept
  refine not_shutdownKept (w := w) ?_ hkept
  refine carries_write_bind (fun h => nomatch h) trivial ?_
  refine keeps_bind (keeps_updateProjectionJob _ a) fun _ => ?_
  exact keeps_bind (keeps_setProjection _ _ _ _ _) fun _ => keeps_pure _

/-- What a run leaves is asked to shut down just when the snapshot it holds
from before the dispatch is. -/
theorem RunFrame.after_requested
    (h : run.snapshot.shutdownWorkflowId = some w) :
    Requested w (RunFrame.after run) := by
  unfold RunFrame.after
  rw [h, Option.isSome_some, if_pos rfl]
  exact .stopped h

theorem RunFrame.after_lost (h : run.snapshot.shutdownWorkflowId ≠ some w) :
    Lost w (RunFrame.after run) := by
  unfold RunFrame.after
  split
  · exact h
  · exact fun h' => nomatch h'

theorem settling_kept_iff {status : String} {f : RunFrame → Processing}
    (hs : ShutdownKept w handed s) :
    ShutdownKept w handed
        ((settleRun M config run status a >>= fun r => pure (f r)).run s).2
      ↔ ¬ (Returns (settleClaim M config run status a) s
        ∧ run.snapshot.shutdownWorkflowId ≠ some w) := by
  rw [state_bind_pure]
  by_cases hreturns : Returns (settleClaim M config run status a) s
  · obtain ⟨settled, t, hrun⟩ := hreturns
    have ht := keeps_settleClaim M config run status a s hs
    rw [hrun] at ht
    have hrest : ∀ {Q : TeammateStateSnapshot → Prop}
        {H : List MailboxEnvelope → Prop},
        Q (RunFrame.after run) → H t.handed →
        Carries Q H ((settleRun M config run status a).run s).2 := by
      intro Q H hQ hH
      unfold settleRun
      rw [run_bind_of_ok hrun]
      refine carries_write_bind hQ hH ?_
      refine keeps_bind (keeps_updateProjectionJob _ a) fun _ => ?_
      exact keeps_bind (keeps_setProjection _ _ _ _ _) fun _ => keeps_pure _
    by_cases hid : run.snapshot.shutdownWorkflowId = some w
    · exact iff_of_true (hrest (RunFrame.after_requested hid) ht.handed)
        fun h => h.2 hid
    · exact iff_of_false
        (not_shutdownKept (hrest (RunFrame.after_lost hid) trivial))
        (not_not.2 ⟨⟨settled, t, hrun⟩, hid⟩)
  · refine iff_of_true ?_ fun h => hreturns h.1
    exact carries_bind_of_not_returns
      (keeps_settleClaim M config run status a) hs hreturns

theorem keeps_requested_endRun (run : RunFrame) (status : String)
    (a : Answers) : Keeps (Requested w) H (endRun M config run status a) := by
  refine keeps_bind (keeps_lift _) fun _ => ?_
  cases run.snapshot.shutdownWorkflowId with
  | none => exact keeps_pure _
  | some workflowId =>
    exact keeps_bind (keeps_completeShutdown M config
      (fun _ h => .stopped h.1) _ a) fun _ => keeps_pure _

/-- After an await the processor keeps the request just when the step is
none of those. -/
theorem resume_kept_iff {frame : ProcessFrame}
    (hs : ShutdownKept w handed s) :
    ShutdownKept w handed ((resume M config frame a).run s).2
      ↔ ¬ ProcessFrame.Overwrites M config w a s frame := by
  cases frame with
  | recovering frame =>
    exact recovering_kept_iff M config hs
  | completing frame result => exact completing_kept_iff config hs
  | dispatching run =>
    unfold resume ProcessFrame.Overwrites
    cases hdispatch : a.dispatchPrepared with
    | ok status => exact iff_of_true hs fun h => nomatch h
    | error thrown =>
      cases thrown with
      | cancelled => exact iff_of_true hs fun h => nomatch h
      | exception text =>
        dsimp only
        rw [state_tryExcept, dispatching_kept_iff M config hs]
        refine not_congr ⟨fun h => ⟨text, rfl, h⟩, fun h => ?_⟩
        obtain ⟨text', heq, h⟩ := h
        cases heq
        exact h
  | notifyingFailure run error =>
    unfold resume ProcessFrame.Overwrites
    dsimp only
    cases answered a.returned with
    | ok u => exact iff_of_true hs id
    | error e => exact iff_of_true hs id
  | stoppingHeartbeat run outcome =>
    unfold resume ProcessFrame.Overwrites
    cases outcome with
    | error e => exact iff_of_true hs fun h => nomatch h
    | ok status =>
      show ShutdownKept w handed ((settleRun M config run status a
        >>= fun r => pure _).run s).2 ↔ _
      rw [settling_kept_iff M config hs]
      refine not_congr ⟨fun h => ⟨status, rfl, h⟩, fun h => ?_⟩
      obtain ⟨status', heq, h⟩ := h
      cases heq
      exact h
  | notifying run status =>
    exact iff_of_true (keeps_requested_endRun M config run status a s hs) id

theorem beginShutdown_carries {w' : UuidHex} (hfound : s.held = some found)
    (hQ : Q (found.stopping w')) (hH : H s.handed) :
    Carries Q H ((beginShutdown M config w' a).run s).2 := by
  unfold beginShutdown
  rw [run_bind_of_ok (run_snapshot M hfound)]
  refine carries_write_bind hQ hH ?_
  refine keeps_bind (keeps_read _) fun taskId => ?_
  refine keeps_bind (keeps_updateProjectionJob _ a) fun _ => ?_
  exact keeps_bind (keeps_setProjection _ _ _ _ _) fun _ => keeps_pure _

theorem beginShutdown_kept_iff {w' : UuidHex} (hs : ShutdownKept w handed s) :
    ShutdownKept w handed ((beginShutdown M config w' a).run s).2
      ↔ ¬ w' ≠ w := by
  obtain ⟨found, hfound, -⟩ := hs.held
  by_cases hw : w' = w
  · refine iff_of_true ?_ (not_not.2 hw)
    rw [hw]
    exact beginShutdown_carries M config hfound ⟨rfl, rfl⟩ hs.handed
  · refine iff_of_false (not_shutdownKept (w := w) ?_) (not_not.2 hw)
    exact beginShutdown_carries M config hfound
      (fun h => hw (Option.some.inj h)) trivial

theorem beginShutdown_kept {t : Service ι κ}
    (h : (beginShutdown M config w a).run s
      = (.ok (some next), t)) : ShutdownKept w t.handed t := by
  unfold beginShutdown at h
  cases hrun : (snapshot M).run s with
  | mk r u =>
    cases r with
    | error e =>
      rw [run_bind_of_error hrun] at h
      cases h
    | ok found =>
      rw [run_bind_of_ok hrun] at h
      cases found with
      | none => cases h
      | some found =>
        have ht := congrArg Prod.snd h
        dsimp only at ht
        have hkept : Carries (Requested w) (fun _ => True) t := by
          rw [← ht]
          refine carries_write_bind ⟨rfl, rfl⟩ trivial ?_
          refine keeps_bind (keeps_read _) fun taskId => ?_
          refine keeps_bind (keeps_updateProjectionJob _ a) fun _ => ?_
          exact keeps_bind (keeps_setProjection _ _ _ _ _)
            fun _ => keeps_pure _
        exact ⟨hkept.held, hkept.stored, rfl⟩

-- ============ the runs

/-- The orchestrator of one teammate: its service, the coroutine that holds
the processing lock, and the calls of `recover` that are under way. -/
structure Orchestration (ι κ : Type) where
  service : Service ι κ
  processing : Option ProcessFrame
  recovering : List RecoverFrame

/-- A call that is made, or a coroutine that goes on. -/
inductive Action where
  | processNextWorkItem (a : Answers)
  | resume (a : Answers)
  | beginShutdown (workflowId : UuidHex) (a : Answers)
  | enterPermissionWait (permissionId : String) (a : Answers)
  | exitPermissionWait (permissionId : String) (a : Answers)
  | recover (a : Answers)
  | resumeRecover (index : Nat) (a : Answers)
  | beat (now : Datetime)
  | publishWorkItem (item : WorkItem) (messageId correlationId : UuidHex)
      (a : Answers)

/-- The frame of a coroutine that waits; none of one that returned or
raised. -/
def frameOf {φ : Type} (outcome : Except ServiceError (Progress α φ)) :
    Option φ :=
  match outcome with
  | .ok (.waiting frame) => some frame
  | _ => none

def Orchestration.call (t : Orchestration ι κ) (m : Call ι κ α) :
    Orchestration ι κ :=
  { t with service := (m.run t.service).2 }

/-- Run the coroutine that has the lock. -/
def Orchestration.process (t : Orchestration ι κ) (m : Call ι κ Processing) :
    Orchestration ι κ :=
  { t with
    service := (m.run t.service).2
    processing := frameOf (m.run t.service).1 }

/-- The orchestrator, one piece of a coroutine a step. -/
def orchestrationSystem : System (Orchestration ι κ) Action where
  step t
    | .processNextWorkItem a =>
      if t.processing.isSome then none
      else some (t.process (Service.processNextWorkItem M config a))
    | .resume a =>
      t.processing.map fun frame => t.process (Service.resume M config frame a)
    | .beginShutdown workflowId a =>
      some (t.call (Service.beginShutdown M config workflowId a))
    | .enterPermissionWait permissionId a =>
      some (t.call (Service.enterPermissionWait M permissionId a))
    | .exitPermissionWait permissionId a =>
      some (t.call (Service.exitPermissionWait M permissionId a))
    | .recover a =>
      let outcome := (Service.recover M config a).run t.service
      some { t with
        service := outcome.2
        recovering := t.recovering ++ (frameOf outcome.1).toList }
    | .resumeRecover index a =>
      t.recovering[index]?.map fun frame =>
        let outcome := (Service.resumeRecover M config frame a).run t.service
        { t with
          service := outcome.2
          recovering := t.recovering.eraseIdx index
            ++ (frameOf outcome.1).toList }
    | .beat now =>
      (t.processing.bind (·.beating)).map fun run =>
        t.call (Service.beat M run now)
    | .publishWorkItem item messageId correlationId a =>
      some (t.call (Service.publishWorkItem M config item messageId
        correlationId a))

/-- The steps that write a snapshot without the request. -/
def Overwrites (w : UuidHex) (t : Orchestration ι κ) : Action → Prop
  | .resume a =>
    ∃ frame, t.processing = some frame
      ∧ ProcessFrame.Overwrites M config w a t.service frame
  | .resumeRecover index a =>
    ∃ frame, t.recovering[index]? = some frame
      ∧ Resets M config frame a t.service
  | .beginShutdown workflowId _ => workflowId ≠ w
  | _ => False

theorem step_kept_iff {t t' : Orchestration ι κ} {action : Action}
    (ht : ShutdownKept w handed t.service)
    (hstep : (orchestrationSystem M config).step t action = some t') :
    ShutdownKept w handed t'.service ↔ ¬ Overwrites M config w t action := by
  cases action with
  | processNextWorkItem a =>
    refine iff_of_true ?_ id
    replace hstep : (if t.processing.isSome then none
      else some (t.process (Service.processNextWorkItem M config a)))
        = some t' := hstep
    split at hstep
    · cases hstep
    · cases hstep
      exact keeps_requested_processNextWorkItem M config a _ ht
  | resume a =>
    obtain ⟨frame, hframe, ht'⟩ := Option.map_eq_some_iff.1 hstep
    rw [← ht']
    refine (resume_kept_iff M config ht).trans (not_congr ?_)
    refine ⟨fun h => ⟨frame, hframe, h⟩, fun h => ?_⟩
    obtain ⟨frame', hframe', h⟩ := h
    rw [hframe] at hframe'
    cases hframe'
    exact h
  | beginShutdown workflowId a =>
    cases hstep
    exact beginShutdown_kept_iff M config ht
  | enterPermissionWait permissionId a =>
    cases hstep
    exact iff_of_true (keeps_enterPermissionWait M
      (fun _ p h => h.waitingPermission p) permissionId a _ ht) id
  | exitPermissionWait permissionId a =>
    cases hstep
    exact iff_of_true (keeps_exitPermissionWait M
      (fun _ h => h.resumeActive) permissionId a _ ht) id
  | recover a =>
    cases hstep
    exact iff_of_true (keeps_requested_recover M config a _ ht) id
  | resumeRecover index a =>
    obtain ⟨frame, hframe, ht'⟩ := Option.map_eq_some_iff.1 hstep
    rw [← ht']
    refine ⟨fun hkept hover => ?_, fun hnot => ?_⟩
    · obtain ⟨frame', hframe', hresets⟩ := hover
      rw [hframe] at hframe'
      cases hframe'
      exact not_shutdownKept (resumeRecover_lost M config hresets) hkept
    · exact resumeRecover_kept M config ht
        fun hresets => hnot ⟨frame, hframe, hresets⟩
  | beat now =>
    obtain ⟨run, -, ht'⟩ := Option.map_eq_some_iff.1 hstep
    rw [← ht']
    exact iff_of_true (keeps_beat M run now _ ht) id
  | publishWorkItem item messageId correlationId a =>
    cases hstep
    exact iff_of_true (keeps_publishWorkItem M config item messageId
      correlationId a _ ht) id

/-- Once `begin_shutdown` has returned the snapshot, whatever is under way,
the request is kept at every moment of a run, and no item is claimed, just
when no step of the run overwrites it. -/
theorem shutdown_kept_iff {s s' : Service ι κ} {w : UuidHex} {a : Answers}
    {next : TeammateStateSnapshot}
    (hbegin : (beginShutdown M config w a).run s = (.ok (some next), s'))
    (processing : Option ProcessFrame) (recovering : List RecoverFrame)
    (actions : List Action) :
    (∀ t, (orchestrationSystem M config).Visits
        ⟨s', processing, recovering⟩ actions t →
        ShutdownKept w s'.handed t.service)
      ↔ ∀ t action t', (orchestrationSystem M config).Takes
        ⟨s', processing, recovering⟩ actions t action t' →
        ¬ Overwrites M config w t action :=
  System.visits_iff_takes (I := fun _ => True) (fun _ _ _ _ _ => trivial)
    (fun _ _ _ _ ht hstep => step_kept_iff M config ht hstep) trivial
    (beginShutdown_kept M config hbegin)

-- ==== a run that finishes

def sampleOrchestration : OrchestrationConfig :=
  ⟨"team", "worker", 30000, 3, sampleConfig⟩

/-- The core prepares every request, and the run completes. -/
def sampleAnswers : Answers where
  now := sampleTime
  backoffEnd := sampleTime
  claimId := sampleItem.messageId
  tempId := sampleItem.messageId
  isPending _ := false
  projectionJob := none
  createJob := .ok "job"
  updateJob := .ok ()
  shutdownWorkflow := .acknowledged
  prepareExecution _ := .ok "run"
  activeRunLinked := .ok false
  dispatchPrepared := .ok "completed"
  returned := .ok ()

def sampleService (payload : Jobs.Fields) :
    Service UuidHex (UuidHex × String) where
  mailbox := { (MailboxState.init : InMemoryMailbox) with
    inbox := Dict.empty.insert sampleItem.messageId
      { sampleItem with payload := payload } }
  stateFile := some (.new .idle)
  registration := some ⟨"agent", "session", "/work", 30000, 3, []⟩
  held := some (.new .idle)
  projection := none
  recovered := true
  livePermissionWaits := []
  handed := []

theorem shutdown_kept_sample :
    (∀ t, (orchestrationSystem InMemory.mailbox sampleOrchestration).Visits
        ⟨((beginShutdown InMemory.mailbox sampleOrchestration
          sampleItem.messageId sampleAnswers).run (sampleService [])).2,
          none, []⟩ [.recover sampleAnswers] t →
        ShutdownKept sampleItem.messageId [] t.service)
      ↔ ∀ t action t',
        (orchestrationSystem InMemory.mailbox sampleOrchestration).Takes
          ⟨((beginShutdown InMemory.mailbox sampleOrchestration
            sampleItem.messageId sampleAnswers).run (sampleService [])).2,
            none, []⟩ [.recover sampleAnswers] t action t' →
        ¬ Overwrites InMemory.mailbox sampleOrchestration
          sampleItem.messageId t action :=
  shutdown_kept_iff InMemory.mailbox sampleOrchestration
    (s := sampleService []) (a := sampleAnswers) rfl none []
    [.recover sampleAnswers]

/-- The snapshot is idle. -/
private def idles (t : Orchestration UuidHex (UuidHex × String)) : Bool :=
  t.service.held.any (·.state = .idle)

/-- The request is made while the run is dispatched; the run completes and
the snapshot is idle. -/
theorem completed_run_loses_shutdown : ¬ ∀ (s s' : Service UuidHex
    (UuidHex × String)) (next : TeammateStateSnapshot) (processing recovering)
    (actions : List Action),
    (beginShutdown InMemory.mailbox sampleOrchestration sampleItem.messageId
      sampleAnswers).run s = (.ok (some next), s') →
    ∀ t, (orchestrationSystem InMemory.mailbox sampleOrchestration).Visits
      ⟨s', processing, recovering⟩ actions t →
      ShutdownKept sampleItem.messageId s'.handed t.service := by
  intro hall
  have htest : ((orchestrationSystem InMemory.mailbox
      sampleOrchestration).run
        ⟨sampleService [(.str "prompt", .str "go")], none, []⟩
        [.processNextWorkItem sampleAnswers]).any (fun t =>
      ((beginShutdown InMemory.mailbox sampleOrchestration
        sampleItem.messageId sampleAnswers).run t.service).1.toOption.any
          Option.isSome
      && ((orchestrationSystem InMemory.mailbox sampleOrchestration).run
        ⟨((beginShutdown InMemory.mailbox sampleOrchestration
          sampleItem.messageId sampleAnswers).run t.service).2,
          t.processing, t.recovering⟩
        [.resume sampleAnswers, .resume sampleAnswers]).any idles) = true := by
    decide +kernel
  obtain ⟨t, -, htest⟩ := (Option.any_eq_true ..).1 htest
  obtain ⟨hreturns, hruns⟩ := (Bool.and_eq_true ..).mp htest
  obtain ⟨u, hu, hidle⟩ := (Option.any_eq_true ..).1 hruns
  cases hbegin : (beginShutdown InMemory.mailbox sampleOrchestration
      sampleItem.messageId sampleAnswers).run t.service with
  | mk r s' =>
    rw [hbegin] at hreturns hu
    cases r with
    | error e => cases hreturns
    | ok found =>
      cases found with
      | none => cases hreturns
      | some next =>
        have hkept := hall t.service s' next t.processing t.recovering
          _ hbegin u (System.Visits.finish hu)
        obtain ⟨found, hfound, -, hdown⟩ := hkept.held
        unfold idles at hidle
        rw [hfound, Option.any_some, decide_eq_true_iff] at hidle
        unfold TeammateStateSnapshot.shuttingDown at hdown
        rw [hidle] at hdown
        cases hdown

end Service

end WeaveRuntime.Teammates
