/-
The jobs the projections name.

No job is ever taken from the store, and every job id the orchestrator has,
in the projection or in the frame of a coroutine, is the id of a job that
is there: an id gets to either place after the job of it was updated.

`Tame` is what the calls without the job service do to the projection and
to the registration, `Safe` the rule for a method with it: `safe_*` says of
every method what jobs it leaves and what jobs its frame names.
-/
import WeaveRuntime.Teammates.ProjectionJobs

namespace WeaveRuntime.Teammates

open Lib
open Python
open Jobs (CompatChanges Env Fields JobRecord JobStatus JobStore
  JobsState LawfulJobStore Raised compatStatus requireRecord run_getSync
  updateCompat updatedCompatRecord validateJobTransition
  validateJobTransition_eq_ok)

-- =========== the store

section Store

variable {σ : Type} (L : LawfulJobStore σ)

def Kept (jobs : JobsState σ) (jobId : String) : Prop :=
  (L.store.get jobs.store jobId).isSome

/-- Every job stays; where none is created, none is new. -/
structure Grows (creates : Bool) (s t : JobsState σ) : Prop where
  stay : ∀ jobId, Kept L s jobId → Kept L t jobId
  same : creates = false → ∀ jobId, Kept L t jobId → Kept L s jobId

/-- No job is kept under the id `uuid4` gives. -/
def Fresh (env : Env) (jobs : JobsState σ) : Prop :=
  ∀ jobId, Kept L jobs jobId → L.name jobId ≠ L.name env.hex.text

variable {L}

theorem Grows.refl {creates : Bool} (s : JobsState σ) : Grows L creates s s :=
  ⟨fun _ h => h, fun _ _ h => h⟩

theorem Grows.trans {creates : Bool} {s t u : JobsState σ}
    (hst : Grows L creates s t) (htu : Grows L creates t u) :
    Grows L creates s u :=
  ⟨fun jobId h => htu.stay jobId (hst.stay jobId h),
    fun hnone jobId h => hst.same hnone jobId (htu.same hnone jobId h)⟩

theorem Grows.created {s t : JobsState σ} (h : Grows L false s t) :
    Grows L true s t :=
  ⟨h.stay, fun hnone => nomatch hnone⟩

theorem Fresh.of_grows {env : Env} {s t : JobsState σ} (h : Fresh L env s)
    (hst : Grows L false s t) : Fresh L env t :=
  fun jobId hkept => h jobId (hst.same rfl jobId hkept)

variable {current : JobRecord}

theorem grows_upsert {s : JobsState σ} {record : JobRecord}
    (hget : L.store.get s.store record.jobId = some current) :
    Grows L false s { s with store := L.store.upsert s.store record } := by
  refine ⟨fun jobId hkept => ?_, fun _ jobId hkept => ?_⟩
  · show (L.store.get (L.store.upsert s.store record) jobId).isSome
    by_cases hid : jobId = record.jobId
    · subst hid
      obtain ⟨r, hr, -⟩ := L.lawful.get_upsert hget
      rw [hr]
      rfl
    · obtain ⟨old, hold⟩ := Option.isSome_iff_exists.1 hkept
      have hname : L.name jobId ≠ L.name record.jobId :=
        fun hname => hid (L.lawful.eq_of_name hold hget hname)
      rw [L.lawful.get_upsert_other s.store record jobId hname]
      exact hkept
  · replace hkept : (L.store.get (L.store.upsert s.store record)
      jobId).isSome := hkept
    by_cases hid : jobId = record.jobId
    · subst hid
      exact Option.isSome_iff_exists.2 ⟨current, hget⟩
    · by_cases hname : L.name jobId = L.name record.jobId
      · rw [L.lawful.get_upsert_taken s.store record jobId hname hid] at hkept
        cases hkept
      · rw [L.lawful.get_upsert_other s.store record jobId hname] at hkept
        exact hkept

theorem grows_create {s : JobsState σ} {record : JobRecord}
    (hfresh : ∀ jobId, Kept L s jobId → L.name jobId ≠ L.name record.jobId) :
    Grows L true s { s with store := L.store.upsert s.store record } := by
  refine ⟨fun jobId hkept => ?_, fun hnone => nomatch hnone⟩
  show (L.store.get (L.store.upsert s.store record) jobId).isSome
  rw [L.lawful.get_upsert_other s.store record jobId (hfresh jobId hkept)]
  exact hkept

-- ========= the updates

variable {env : Env} {jobId : String} {changes : CompatChanges}
  {s : JobsState σ}

theorem run_requireRecord (jobId : String) (s : JobsState σ) :
    (requireRecord L.store jobId).run s
      = (orRaise (L.store.get s.store jobId) (.keyError jobId), s) := by
  unfold requireRecord
  rw [Method.run_bind_of_ok (run_getSync jobId s)]
  rfl

theorem updateCompat_unknown (h : L.store.get s.store jobId = none) :
    (updateCompat L.store env jobId changes).run s
      = (.error (.keyError jobId), s) := by
  have hread := run_requireRecord (L := L) jobId s
  rw [h] at hread
  exact Method.run_bind_of_error hread

theorem updateCompat_refused {e : Raised}
    (h : L.store.get s.store jobId = some current)
    (hstatus : compatStatus current changes.status = .error e) :
    (updateCompat L.store env jobId changes).run s = (.error e, s) := by
  have hread := run_requireRecord (L := L) jobId s
  rw [h] at hread
  unfold updateCompat
  rw [Method.run_bind_of_ok hread, hstatus, Method.run_lift_error_bind]

theorem updateCompat_accepted (env : Env) (changes : CompatChanges)
    {next : JobStatus} (h : L.store.get s.store jobId = some current)
    (hstatus : compatStatus current changes.status = .ok next) :
    ∃ record t, (updateCompat L.store env jobId changes).run s
        = (.ok record, t)
      ∧ Grows L false s t
      ∧ ∃ r, L.store.get t.store jobId = some r ∧ r.status = next := by
  have hread := run_requireRecord (L := L) jobId s
  rw [h] at hread
  have hid := L.lawful.jobId_of_get h
  let record := updatedCompatRecord env current next
    (decide (jobId ∈ s.compatStopHandlers)) changes
  have hget : L.store.get s.store record.jobId = some current := by
    show L.store.get s.store current.jobId = some current
    rw [hid]
    exact h
  refine ⟨record, { s with store := L.store.upsert s.store record }, ?_,
    grows_upsert hget, ?_⟩
  · unfold updateCompat
    rw [Method.run_bind_of_ok hread, hstatus, Method.run_lift_ok_bind]
    rfl
  · obtain ⟨r, hr, hnext⟩ := L.lawful.get_upsert hget
    refine ⟨r, ?_, hnext⟩
    rw [← hid]
    exact hr

theorem compatStatus_running (current : JobRecord) :
    (∃ next, compatStatus current (some .running) = .ok next)
      ↔ current.terminal = false := by
  unfold compatStatus JobRecord.terminal
  dsimp only
  unfold validateJobTransition
  cases current.status <;> simp [JobStatus.terminal, Jobs.allowed]

end Store

-- ================ tame

namespace Service

variable {ι κ α β : Type}

def heldJob (s : Service ι κ) : Option String :=
  s.projection.bind (·.taskId)

/-- There is a snapshot to be found. -/
def Known (s : Service ι κ) : Prop := s.held.isSome ∨ s.stateFile.isSome

variable {ids : List String}

/-- The projection names the job it named or one of these, and a teammate
that is registered has a snapshot. -/
structure Tame (ids : List String) (s t : Service ι κ) : Prop where
  held : ∀ jobId ∈ t.heldJob.toList, jobId ∈ ids ∨ jobId ∈ s.heldJob.toList
  known : (s.registration.isSome → Known s) → t.registration.isSome → Known t

theorem Tame.refl (s : Service ι κ) : Tame ids s s :=
  ⟨fun _ h => Or.inr h, fun h => h⟩

theorem Tame.trans {s t u : Service ι κ} (hst : Tame ids s t)
    (htu : Tame ids t u) : Tame ids s u := by
  refine ⟨fun jobId h => ?_, fun h => htu.known (hst.known h)⟩
  rcases htu.held jobId h with h | h
  · exact Or.inl h
  · exact hst.held jobId h

/-- The method is tame. -/
abbrev Tames (ids : List String) (m : Call ι κ α) : Prop :=
  m.Evolves (Tame ids)

theorem tames_pure (a : α) : Tames ids (pure a : Call ι κ α) :=
  Method.evolves_pure Tame.refl a

theorem tames_read (f : Service ι κ → α) :
    Tames ids (Method.read f : Call ι κ α) :=
  Method.evolves_read Tame.refl f

theorem tames_lift (x : Except ServiceError α) :
    Tames ids (Method.lift x : Call ι κ α) :=
  Method.evolves_lift Tame.refl x

theorem tames_bind {m : Call ι κ α} {f : α → Call ι κ β} (hm : Tames ids m)
    (hf : ∀ a, Tames ids (f a)) : Tames ids (m >>= f) :=
  Method.evolves_bind (fun _ _ _ h => h.trans) hm hf

theorem tames_onMailbox (m : Method (MailboxState ι κ) MailboxError α) :
    Tames ids (onMailbox m) :=
  Method.evolves_within (fun _ _ => ⟨fun _ h => Or.inr h, fun h => h⟩) m

theorem tames_writeSnapshot (next : TeammateStateSnapshot) :
    Tames ids (writeSnapshot next : Call ι κ Unit) :=
  Method.evolves_write fun _ => ⟨fun _ h => Or.inr h, fun _ _ => Or.inl rfl⟩

theorem tames_setProjection (found : TeammateStateSnapshot)
    {taskId : Option String} (h : ∀ jobId ∈ taskId.toList, jobId ∈ ids)
    (taskStatus : Option TaskStatus) (progress notification : Option String) :
    Tames ids (setProjection found taskId taskStatus progress notification :
      Call ι κ Unit) :=
  Method.evolves_write fun _ => ⟨fun jobId hid => Or.inl (h jobId hid), id⟩

theorem tames_setProjection_none (found : TeammateStateSnapshot)
    (taskStatus : Option TaskStatus) (progress notification : Option String) :
    Tames ids (setProjection found none taskStatus progress notification :
      Call ι κ Unit) :=
  tames_setProjection found (fun _ h => absurd h List.not_mem_nil) _ _ _

theorem tames_markRecovered :
    Tames ids (Method.write fun s : Service ι κ => { s with recovered := true }) :=
  Method.evolves_write fun _ => ⟨fun _ h => Or.inr h, fun h => h⟩

theorem tames_waits (f : List String → List String) :
    Tames ids (Method.write fun s : Service ι κ =>
      { s with livePermissionWaits := f s.livePermissionWaits }) :=
  Method.evolves_write fun _ => ⟨fun _ h => Or.inr h, fun h => h⟩

variable (M : TeammateMailbox ι κ) (config : OrchestrationConfig)

theorem tames_snapshot : Tames ids (snapshot M) := by
  unfold snapshot
  refine tames_bind (tames_read _) fun held => ?_
  cases held with
  | some found => exact tames_pure _
  | none =>
    refine tames_bind (tames_read _) fun stored => ?_
    cases stored with
    | none => exact tames_pure _
    | some found =>
      exact tames_bind (Method.evolves_write fun _ =>
        ⟨fun _ h => Or.inr h, fun _ _ => Or.inl rfl⟩) fun _ => tames_pure _

theorem run_restoreRegistration (found : TeammateStateSnapshot)
    (s : Service ι κ) : ∃ registration,
    (restoreRegistration config found).run s
      = (.ok (), { s with registration := registration }) := by
  unfold restoreRegistration
  split
  · exact ⟨_, rfl⟩
  · exact ⟨s.registration, rfl⟩

theorem tame_restored {s : Service ι κ} (hknown : Known s)
    (registration : Option TeammateRegistration) :
    Tame ids s { s with registration := registration } :=
  ⟨fun _ h => Or.inr h, fun _ _ => hknown⟩

theorem tames_resolveRegistration : Tames ids (resolveRegistration M config) := by
  intro s
  unfold resolveRegistration
  rw [Method.run_read_bind]
  cases s.registration with
  | some registration => exact Tame.refl s
  | none =>
    dsimp only
    unfold readState
    rw [Method.run_read_bind]
    cases hstored : s.stateFile with
    | none => exact Tame.refl s
    | some stored =>
      have hknown : Known s := Or.inr (by rw [hstored]; rfl)
      obtain ⟨registration, hrun⟩ :=
        run_restoreRegistration config (M.readState stored) s
      show Tame ids s ((restoreRegistration config (M.readState stored)
        >>= _).run s).2
      rw [Method.run_bind_of_ok hrun]
      exact tame_restored hknown registration

theorem tames_adopt (found : TeammateStateSnapshot) :
    Tames ids (BoundService.adopt config found : Call ι κ Unit) := by
  intro s
  unfold BoundService.adopt
  rw [Method.run_write_bind]
  obtain ⟨registration, hrun⟩ := run_restoreRegistration config found
    { s with held := some found }
  rw [hrun]
  exact ⟨fun _ h => Or.inr h, fun _ _ => Or.inl rfl⟩

theorem tames_registerTeammate (request : BoundService.RegisterRequest) :
    Tames ids (BoundService.registerTeammate M config request) := by
  intro s
  unfold BoundService.registerTeammate
  rw [Method.run_write_bind]
  unfold readState
  rw [Method.run_read_bind]
  unfold writeSnapshot
  rw [Method.run_write_bind]
  split
  · exact ⟨fun _ h => absurd h List.not_mem_nil, fun _ _ => Or.inl rfl⟩
  · exact ⟨fun _ h => Or.inr h, fun _ _ => Or.inl rfl⟩

-- -------- the shutdown

theorem tames_finishShutdown (found : TeammateStateSnapshot) :
    Tames ids (finishShutdown config found : Call ι κ Unit) :=
  fun _ => ⟨fun _ h => Or.inr h, fun _ _ => Or.inl rfl⟩

theorem tames_completeShutdown (workflowId : UuidHex) (a : Answers) :
    Tames ids (completeShutdown M config workflowId a) := by
  unfold completeShutdown
  refine tames_bind (tames_snapshot M) fun found => ?_
  cases found with
  | none => exact tames_pure _
  | some found =>
    dsimp only
    split
    · cases a.shutdownWorkflow with
      | closed =>
        exact tames_bind (tames_finishShutdown config found)
          fun _ => tames_pure _
      | _ => exact tames_pure _
    · exact tames_pure _

theorem tames_resumeComplete (frame : CompleteFrame) (a : Answers) :
    Tames ids (resumeComplete config frame a : Call ι κ _) := by
  unfold resumeComplete
  refine tames_bind (tames_lift _) fun _ => ?_
  split
  · exact tames_pure _
  · exact tames_bind (tames_finishShutdown config frame.snapshot)
      fun _ => tames_pure _

theorem tames_endRun (run : RunFrame) (status : String) (a : Answers) :
    Tames ids (endRun M config run status a) := by
  unfold endRun
  refine tames_bind (tames_lift _) fun _ => ?_
  split
  · exact tames_pure _
  · exact tames_bind (tames_completeShutdown M config _ a)
      fun _ => tames_pure _

-- ---------- the claims

theorem tames_hasLivePermissionWait (found : TeammateStateSnapshot)
    (a : Answers) : Tames ids (hasLivePermissionWait found a : Call ι κ Bool) := by
  unfold hasLivePermissionWait
  split
  · exact tames_pure _
  · exact tames_bind (tames_read _) fun _ => tames_pure _

theorem tames_failClaim (frame : RecoverFrame) (reason : String)
    (a : Answers) : Tames ids (failClaim M config frame reason a) :=
  tames_bind (tames_resolveRegistration M config) fun _ => tames_onMailbox _

theorem tames_detach (frame : RecoverFrame) :
    Tames ids (detach frame : Call ι κ _) := by
  unfold detach
  split
  · exact tames_bind (tames_writeSnapshot _) fun _ => tames_pure _
  · exact tames_pure _

theorem tames_finishRecover (found : TeammateStateSnapshot)
    {taskId : Option String} (h : ∀ jobId ∈ taskId.toList, jobId ∈ ids)
    (taskStatus : Option TaskStatus) :
    Tames ids (finishRecover found taskId taskStatus : Call ι κ Unit) := by
  unfold finishRecover projectRecovered
  refine tames_bind ?_ fun _ => tames_markRecovered
  split
  · exact tames_setProjection found h _ _ _
  · split
    · exact tames_setProjection_none _ _ _ _
    · exact tames_pure _

theorem tames_nextClaim (claims : List MailboxEnvelope) {frame : RecoverFrame}
    (h : ∀ jobId ∈ frame.recoveredTaskId.toList, jobId ∈ ids) :
    Tames ids (nextClaim claims frame : Call ι κ _) := by
  unfold nextClaim
  split
  · exact tames_bind (tames_finishRecover _ h _) fun _ => tames_pure _
  · exact tames_pure _

theorem tames_settleIdle (found : TeammateStateSnapshot)
    (activeClaims : Bool) :
    Tames ids (settleIdle found activeClaims : Call ι κ _) := by
  unfold settleIdle
  split
  · exact tames_bind (tames_writeSnapshot _) fun _ => tames_pure _
  · exact tames_pure _

theorem tames_nothingReady (a : Answers) :
    Tames ids (nothingReady M config a) := by
  unfold nothingReady
  refine tames_bind (tames_snapshot M) fun found => ?_
  refine tames_bind (tames_read _) fun activeClaims => ?_
  cases found with
  | none => exact tames_pure _
  | some found =>
    dsimp only
    split
    · refine tames_bind (tames_setProjection_none _ _ _ _) fun _ => ?_
      split
      · exact tames_completeShutdown M config _ a
      · exact tames_pure _
    · refine tames_bind (tames_settleIdle _ _) fun found => ?_
      split
      · exact tames_bind (tames_setProjection_none _ _ _ _)
          fun _ => tames_pure _
      · exact tames_pure _

theorem tames_stopInstead (existing : TeammateStateSnapshot) (a : Answers) :
    Tames ids (stopInstead M config existing a) := by
  unfold stopInstead
  split
  · split
    · exact tames_pure _
    · exact tames_completeShutdown M config _ a
  · exact tames_pure _

theorem tames_claimItem (a : Answers) : Tames ids (claimItem M config a) := by
  unfold claimItem
  refine tames_bind (tames_resolveRegistration M config)
    fun registration => ?_
  refine tames_bind (tames_onMailbox _) fun claimed => ?_
  cases claimed with
  | none =>
    exact tames_bind (tames_nothingReady M config a) fun _ => tames_pure _
  | some claimed =>
    exact tames_bind (Method.evolves_write fun _ =>
      ⟨fun _ h => Or.inr h, fun h => h⟩) fun _ => tames_pure _

theorem tames_claimWork (a : Answers) : Tames ids (claimWork M config a) := by
  unfold claimWork
  refine tames_bind (tames_snapshot M) fun existing => ?_
  split
  · exact tames_bind (tames_stopInstead M config _ a) fun _ => tames_pure _
  · exact tames_claimItem M config a

theorem tames_settleClaim (run : RunFrame) (status : String) (a : Answers) :
    Tames ids (BoundService.settleClaim M config run status a) := by
  unfold BoundService.settleClaim
  split
  · exact tames_bind (tames_onMailbox _) fun _ => tames_pure _
  · exact tames_bind (tames_onMailbox _) fun _ => tames_pure _

theorem tames_beat (run : RunFrame) (now : Datetime) :
    Tames ids (beat M run now) :=
  Method.evolves_tryExcept (fun _ _ _ h => h.trans)
    (tames_bind (tames_onMailbox _) fun _ => tames_pure ())
    fun _ => tames_pure ()

theorem tames_publishWorkItem (item : WorkItem)
    (messageId correlationId : UuidHex) (a : Answers) :
    Tames ids (publishWorkItem M config item messageId correlationId a) :=
  tames_bind (tames_resolveRegistration M config) fun _ => tames_onMailbox _

end Service

-- ================ safe

def KeptJobs {σ : Type} (L : LawfulJobStore σ) (jobs : JobsState σ)
    (ids : List String) : Prop :=
  ∀ jobId ∈ ids, Kept L jobs jobId

theorem KeptJobs.mono {σ : Type} {L : LawfulJobStore σ} {creates : Bool}
    {s t : JobsState σ} {ids : List String} (h : KeptJobs L s ids)
    (hst : Grows L creates s t) : KeptJobs L t ids :=
  fun jobId hid => hst.stay jobId (h jobId hid)

theorem keptJobs_nil {σ : Type} {L : LawfulJobStore σ} (s : JobsState σ) :
    KeptJobs L s [] :=
  fun _ h => absurd h List.not_mem_nil

namespace BoundService

variable {ι κ σ α β : Type} {L : LawfulJobStore σ} {creates : Bool}

/-- The job the projection names is kept, and a teammate that is
registered has a snapshot. -/
structure Grounded (L : LawfulJobStore σ) (s : BoundService ι κ σ) : Prop where
  held : KeptJobs L s.jobs s.service.heldJob.toList
  known : s.service.registration.isSome → s.service.Known

/-- What a method leaves, and what it says of the jobs there. -/
structure Leaves (L : LawfulJobStore σ) (creates : Bool)
    (s : BoundService ι κ σ) (Q : α → JobsState σ → Prop)
    (r : Except ServiceError α) (t : BoundService ι κ σ) : Prop where
  grows : Grows L creates s.jobs t.jobs
  sound : Grounded L t
  result : ∀ a, r = .ok a → Q a t.jobs

/-- From `s`, the method leaves a grounded state. -/
abbrev Safe (L : LawfulJobStore σ) (creates : Bool) (m : Call ι κ σ α)
    (s : BoundService ι κ σ) (Q : α → JobsState σ → Prop) : Prop :=
  m.Ensures s (Leaves L creates s Q)

variable {s : BoundService ι κ σ} {Q : α → JobsState σ → Prop}

theorem safe_pure (hs : Grounded L s) {a : α} (h : Q a s.jobs) :
    Safe L creates (pure a : Call ι κ σ α) s Q :=
  ⟨Grows.refl _, hs, fun _ ha => Except.ok.inj ha ▸ h⟩

theorem safe_lift (hs : Grounded L s) {x : Except ServiceError α}
    (h : ∀ a, x = .ok a → Q a s.jobs) :
    Safe L creates (Method.lift x : Call ι κ σ α) s Q :=
  ⟨Grows.refl _, hs, h⟩

variable {env : Env} {m : Call ι κ σ α}

theorem safe_bind {f : α → Call ι κ σ β} {P : β → JobsState σ → Prop}
    (hm : Safe L creates m s Q)
    (hf : ∀ a t, Grows L creates s.jobs t.jobs → Grounded L t → Q a t.jobs →
      Safe L creates (f a) t P) : Safe L creates (m >>= f) s P := by
  refine Method.ensures_bind hm (fun a t h => ?_) fun e t h => ?_
  · refine (hf a t h.grows h.sound (h.result a rfl)).mono fun r u hu => ?_
    exact ⟨h.grows.trans hu.grows, hu.sound, hu.result⟩
  · exact ⟨h.grows, h.sound, fun a ha => nomatch ha⟩

theorem Safe.created (h : Safe L false m s Q) : Safe L true m s Q :=
  Method.Ensures.mono h fun _ _ hu => ⟨hu.grows.created, hu.sound, hu.result⟩

theorem safe_tryExcept {f : ServiceError → Call ι κ σ α}
    (hm : Safe L creates m s Q)
    (hf : ∀ e t, Grows L creates s.jobs t.jobs → Grounded L t →
      Safe L creates (f e) t Q) : Safe L creates (m.tryExcept f) s Q := by
  unfold Safe Method.Ensures at hm ⊢
  cases hrun : m.run s with
  | mk r t =>
    rw [hrun] at hm
    cases r with
    | ok a =>
      rw [Method.run_tryExcept_of_ok hrun]
      exact hm
    | error e =>
      rw [Method.run_tryExcept_of_error hrun]
      obtain ⟨hgrows, hsound, hresult⟩ := hf e t hm.grows hm.sound
      exact ⟨hm.grows.trans hgrows, hsound, hresult⟩

theorem safe_onService {m : Service.Call ι κ α} {ids : List String}
    (hm : Service.Tames ids m) (hs : Grounded L s)
    (hids : KeptJobs L s.jobs ids) :
    Safe L creates (onService m) s fun _ _ => True := by
  have htame := hm s.service
  refine ⟨Grows.refl _, ⟨fun jobId h => ?_, htame.known hs.known⟩,
    fun _ _ => trivial⟩
  rcases htame.held jobId h with h | h
  · exact hids jobId h
  · exact hs.held jobId h

theorem safe_onService_nil {m : Service.Call ι κ α} (hm : Service.Tames [] m)
    (hs : Grounded L s) : Safe L creates (onService m) s fun _ _ => True :=
  safe_onService hm hs (keptJobs_nil _)

theorem safe_projectionTask (hs : Grounded L s) :
    Safe L creates (onService Service.projectionTask) s
      fun taskId jobs => KeptJobs L jobs taskId.toList :=
  ⟨Grows.refl _, hs, fun _ h => Except.ok.inj h ▸ hs.held⟩

-- ============ the jobs

theorem run_onJobs {m : Jobs.JobMethod σ α} {r : Except Raised α}
    {t : JobsState σ} (h : m.run s.jobs = (r, t)) :
    (onJobs m : Call ι κ σ α).run s
      = (r.mapError fun e => .thrown (thrownBy e), { s with jobs := t }) := by
  unfold onJobs Method.within
  dsimp only
  rw [h]

section Update

variable {jobId : String} {status : TaskStatus} {result : Option Fields}
  {error : Option String} {metadata : Fields} {env : Env}

theorem updateProjectionJob_raises {e : Raised}
    (h : (updateCompat L.store env jobId ⟨some status.toJobStatus, none,
      result.map .dict, error.map .str, metadata, none⟩).run s.jobs
        = (.error e, s.jobs)) :
    (updateProjectionJob L.store jobId status result error metadata env :
      Call ι κ σ Unit).run s = (.error (.thrown (thrownBy e)), s) := by
  unfold updateProjectionJob
  exact Method.run_bind_of_error (run_onJobs h)

theorem updateProjectionJob_accepted {current : JobRecord} {next : JobStatus}
    (hget : L.store.get s.jobs.store jobId = some current)
    (hstatus : compatStatus current (some status.toJobStatus) = .ok next) :
    ∃ t, (updateProjectionJob L.store jobId status result error metadata
        env : Call ι κ σ Unit).run s = (.ok (), { s with jobs := t })
      ∧ Grows L false s.jobs t
      ∧ ∃ r, L.store.get t.store jobId = some r ∧ r.status = next := by
  obtain ⟨record, t, hrun, hgrows, hkept⟩ :=
    updateCompat_accepted env ⟨some status.toJobStatus, none,
      result.map .dict, error.map .str, metadata, none⟩ hget hstatus
  refine ⟨t, ?_, hgrows, hkept⟩
  unfold updateProjectionJob
  exact Method.run_bind_of_ok (run_onJobs hrun)

end Update

section

variable (hs : Grounded L s)
include hs

theorem safe_updateProjectionJob_status (jobId : String) (status : TaskStatus)
    (result : Option Fields) (error : Option String) (metadata : Fields)
    (env : Env) :
    Safe L false (updateProjectionJob L.store jobId status result error
      metadata env) s fun _ jobs =>
        ∃ record, L.store.get jobs.store jobId = some record
          ∧ record.status = status.toJobStatus := by
  unfold Safe Method.Ensures
  cases hget : L.store.get s.jobs.store jobId with
  | none =>
    rw [updateProjectionJob_raises (updateCompat_unknown hget)]
    exact ⟨Grows.refl _, hs, fun _ h => nomatch h⟩
  | some current =>
    cases hstatus : compatStatus current (some status.toJobStatus) with
    | error e =>
      rw [updateProjectionJob_raises (updateCompat_refused hget hstatus)]
      exact ⟨Grows.refl _, hs, fun _ h => nomatch h⟩
    | ok next =>
      obtain ⟨t, hrun, hgrows, r, hr, hnext⟩ :=
        updateProjectionJob_accepted hget hstatus
      rw [hrun]
      refine ⟨hgrows, ⟨hs.held.mono hgrows, hs.known⟩,
        fun _ _ => ⟨r, hr, hnext.trans ?_⟩⟩
      exact validateJobTransition_eq_ok hstatus

theorem safe_updateProjectionJob (jobId : String) (status : TaskStatus)
    (result : Option Fields) (error : Option String) (metadata : Fields)
    (env : Env) :
    Safe L false (updateProjectionJob L.store jobId status result error
      metadata env) s fun _ jobs => KeptJobs L jobs [jobId] := by
  refine Method.Ensures.mono (safe_updateProjectionJob_status hs jobId status
    result error metadata env) fun r t h => ⟨h.grows, h.sound, ?_⟩
  intro u hu id hid
  obtain ⟨record, hrecord, -⟩ := h.result u hu
  rw [List.mem_singleton.1 hid]
  exact Option.isSome_iff_exists.2 ⟨record, hrecord⟩

theorem safe_updateHeldJob {taskId : Option String} (metadata : Fields)
    (env : Env) :
    Safe L false (updateHeldJob L.store taskId metadata env) s
      fun _ jobs => KeptJobs L jobs taskId.toList := by
  cases taskId with
  | none => exact safe_pure hs (keptJobs_nil _)
  | some taskId => exact safe_updateProjectionJob hs taskId _ _ _ _ _

theorem safe_createProjectionJob (hfresh : Fresh L env s.jobs)
    (summary : String) (description : Option String) (metadata : Fields) :
    Safe L true (createProjectionJob L.store summary description metadata
      env) s fun _ _ => True := by
  obtain ⟨record, hrun, hid⟩ : ∃ record : JobRecord,
      (Jobs.createOrUpdateCompat L.store env env.hex.text summary description
        metadata).run s.jobs
        = (.ok record,
          { s.jobs with store := L.store.upsert s.jobs.store record })
      ∧ record.jobId = env.hex.text := ⟨_, rfl, rfl⟩
  have hgrows : Grows L true s.jobs
      { s.jobs with store := L.store.upsert s.jobs.store record } := by
    refine grows_create fun jobId hkept => ?_
    rw [hid]
    exact hfresh jobId hkept
  unfold createProjectionJob Safe Method.Ensures
  rw [Method.run_bind_of_ok (run_onJobs hrun)]
  exact ⟨hgrows, ⟨hs.held.mono hgrows, hs.known⟩, fun _ _ => trivial⟩

theorem safe_reconcileProjectionJob (config : OrchestrationConfig)
    (sessionId messageId claimId runId : Option String) (reason : String)
    (mailboxTerminalState : PyVal) (env : Env) :
    Safe L false (reconcileProjectionJob L.store config sessionId messageId
      claimId runId reason mailboxTerminalState env) s
      fun taskId jobs => KeptJobs L jobs taskId.toList := by
  unfold reconcileProjectionJob findProjectionJob
  refine Method.ensures_read_bind ?_
  split
  · exact safe_pure hs (keptJobs_nil _)
  · refine safe_bind (safe_updateProjectionJob hs _ _ _ _ _ _)
      fun _ t _ ht hkept => ?_
    exact safe_pure ht hkept

end

-- ========= the methods

variable (M : TeammateMailbox ι κ) (config : OrchestrationConfig)

theorem safe_beginShutdown (hs : Grounded L s) (workflowId : UuidHex)
    (env : Env) :
    Safe L false (beginShutdown M L.store config workflowId env) s
      fun _ _ => True := by
  unfold beginShutdown
  refine safe_bind (safe_onService_nil (Service.tames_snapshot M) hs)
    fun found t _ ht _ => ?_
  cases found with
  | none => exact safe_pure ht trivial
  | some found =>
    refine safe_bind (safe_onService_nil (Service.tames_writeSnapshot _) ht)
      fun _ t _ ht _ => ?_
    refine safe_bind (safe_projectionTask ht) fun taskId t _ ht _ => ?_
    refine safe_bind (safe_updateHeldJob ht _ env)
      fun _ t _ ht hkept => ?_
    refine safe_bind (safe_onService
      (Service.tames_setProjection _ (fun _ h => h) _ _ _) ht hkept)
      fun _ t _ ht _ => ?_
    exact safe_pure ht trivial

theorem safe_enterPermissionWait (hs : Grounded L s) (permissionId : String)
    (env : Env) :
    Safe L false (enterPermissionWait M L.store permissionId env) s
      fun _ _ => True := by
  unfold enterPermissionWait
  refine safe_bind (safe_onService_nil (Service.tames_snapshot M) hs)
    fun found t _ ht _ => ?_
  cases found with
  | none => exact safe_pure ht trivial
  | some found =>
    refine safe_bind (safe_onService_nil (Service.tames_waits _) ht)
      fun _ t _ ht _ => ?_
    refine safe_bind (safe_onService_nil (Service.tames_writeSnapshot _) ht)
      fun _ t _ ht _ => ?_
    refine safe_bind (safe_projectionTask ht) fun taskId t _ ht _ => ?_
    refine safe_bind (safe_updateHeldJob ht _ env)
      fun _ t _ ht hkept => ?_
    exact safe_onService
      (Service.tames_setProjection _ (fun _ h => h) _ _ _) ht hkept

theorem safe_exitPermissionWait (hs : Grounded L s) (permissionId : String)
    (env : Env) :
    Safe L false (exitPermissionWait M L.store permissionId env) s
      fun _ _ => True := by
  unfold exitPermissionWait
  refine safe_bind (safe_onService_nil
    (Service.tames_waits fun waits => waits.filter (· ≠ permissionId)) hs)
    fun _ t _ ht _ => ?_
  refine safe_bind (safe_onService_nil (Service.tames_snapshot M) ht)
    fun found t _ ht _ => ?_
  cases found with
  | none => exact safe_pure ht trivial
  | some found =>
    dsimp only
    split
    · refine safe_bind
        (safe_onService_nil (Service.tames_writeSnapshot _) ht)
        fun _ t _ ht _ => ?_
      refine safe_bind (safe_projectionTask ht) fun taskId t _ ht _ => ?_
      refine safe_bind (safe_updateHeldJob ht _ env)
        fun _ t _ ht hkept => ?_
      exact safe_onService
        (Service.tames_setProjection _ (fun _ h => h) _ _ _) ht hkept
    · exact safe_pure ht trivial

-- ------------ recovery

def Waits {φ : Type} (jobsOf : φ → List String) (L : LawfulJobStore σ)
    (progress : Service.Progress α φ) (jobs : JobsState σ) : Prop :=
  ∀ frame, progress = .waiting frame → KeptJobs L jobs (jobsOf frame)

def recoverJobs (frame : Service.RecoverFrame) : List String :=
  frame.recoveredTaskId.toList

def processJobs : Service.ProcessFrame → List String
  | .recovering frame => recoverJobs frame
  | .completing _ _ => []
  | .dispatching run => [run.taskId]
  | .notifyingFailure run _ => [run.taskId]
  | .stoppingHeartbeat run _ => [run.taskId]
  | .notifying run _ => [run.taskId]

theorem waits_ended {φ : Type} {jobsOf : φ → List String} (result : α)
    (jobs : JobsState σ) :
    Waits jobsOf L (.ended result) jobs := fun _ h => nomatch h

theorem waits_waiting {φ : Type} {jobsOf : φ → List String} {frame : φ}
    {jobs : JobsState σ} (h : KeptJobs L jobs (jobsOf frame)) :
    Waits jobsOf L (.waiting frame : Service.Progress α φ) jobs :=
  fun _ heq => Service.Progress.waiting.inj heq ▸ h

theorem safe_recoverFrom (hs : Grounded L s) (found : TeammateStateSnapshot)
    (a : Answers) (env : Env) :
    Safe L false (recoverFrom M L.store config found a env) s
      (Waits recoverJobs L) := by
  unfold recoverFrom
  refine safe_bind (safe_onService_nil (Service.tames_adopt config found) hs)
    fun _ t _ ht _ => ?_
  refine safe_bind
    (safe_onService_nil (Service.tames_hasLivePermissionWait found a) ht)
    fun live t _ ht _ => ?_
  refine safe_bind (safe_onService_nil (Service.tames_read _) ht)
    fun claimed t _ ht _ => ?_
  cases claimed with
  | cons envelope remaining =>
    exact safe_pure ht (waits_waiting (keptJobs_nil _))
  | nil =>
    dsimp only
    split
    · refine safe_bind (safe_reconcileProjectionJob ht config _ _ _ _ _ _ _)
        fun _ t _ ht _ => ?_
      refine safe_bind
        (safe_onService_nil (Service.tames_writeSnapshot _) ht)
        fun _ t _ ht _ => ?_
      refine safe_bind (safe_onService_nil Service.tames_markRecovered ht)
        fun _ t _ ht _ => ?_
      exact safe_pure ht (waits_ended _ _)
    · refine safe_bind (safe_onService_nil (Service.tames_finishRecover _
        (fun _ h => absurd h List.not_mem_nil) _) ht) fun _ t _ ht _ => ?_
      exact safe_pure ht (waits_ended _ _)

theorem safe_recover (hs : Grounded L s) (a : Answers) (env : Env) :
    Safe L false (recover M L.store config a env) s
      (Waits recoverJobs L) := by
  unfold recover
  refine safe_bind (safe_onService_nil (Service.tames_read _) hs)
    fun stored t _ ht _ => ?_
  cases stored with
  | none => exact safe_pure ht (waits_ended _ _)
  | some found => exact safe_recoverFrom M config ht found a env

theorem safe_giveBack (hs : Grounded L s) (frame : Service.RecoverFrame)
    (reason : String) (a : Answers) (env : Env) :
    Safe L false (giveBack M L.store config frame reason a env) s
      fun next jobs => KeptJobs L jobs (recoverJobs next) := by
  unfold giveBack
  refine safe_bind
    (safe_onService_nil (Service.tames_failClaim M config frame reason a) hs)
    fun settled t _ ht _ => ?_
  refine safe_bind (safe_reconcileProjectionJob ht config _ _ _ _ _ _ _)
    fun taskId t _ ht hkept => ?_
  refine safe_bind (safe_onService_nil (Service.tames_detach frame) ht)
    fun next u hgrows hu _ => ?_
  exact safe_pure hu (hkept.mono hgrows)

theorem safe_recoverClaim (hs : Grounded L s) (frame : Service.RecoverFrame)
    (hframe : KeptJobs L s.jobs (recoverJobs frame)) (a : Answers)
    (env : Env) :
    Safe L false (recoverClaim M L.store config frame a env) s
      fun next jobs => KeptJobs L jobs (recoverJobs next) := by
  unfold recoverClaim
  refine safe_bind (Q := fun _ jobs => KeptJobs L jobs (recoverJobs frame))
    (safe_lift hs fun _ _ => hframe) fun linked t _ ht hframe => ?_
  extract_lets waitingSnapshot waitingPermission
  split
  · exact safe_giveBack M config ht frame _ a env
  · refine safe_bind (Q := fun _ jobs => KeptJobs L jobs (recoverJobs frame))
      (safe_lift ht fun _ _ => hframe) fun stale t _ ht hframe => ?_
    split
    · exact safe_giveBack M config ht frame _ a env
    · split
      · exact safe_pure ht hframe
      · exact safe_pure ht hframe

theorem waits_nextClaim {claims : List MailboxEnvelope}
    {frame : Service.RecoverFrame} {jobs : JobsState σ}
    (hframe : KeptJobs L jobs (recoverJobs frame)) (t : Service ι κ) :
    ∀ progress, ((Service.nextClaim claims frame).run t).1 = .ok progress →
      Waits recoverJobs L progress jobs := by
  intro progress h
  cases claims with
  | nil =>
    replace h : ((Service.finishRecover frame.snapshot
      frame.recoveredTaskId frame.recoveredTaskStatus
        >>= fun _ => pure (.ended frame.recovered)).run t).1
      = .ok progress := h
    cases hrun : (Service.finishRecover frame.snapshot
        frame.recoveredTaskId frame.recoveredTaskStatus).run t with
    | mk r u =>
      cases r with
      | error e =>
        rw [Method.run_bind_of_error hrun] at h
        cases h
      | ok _ =>
        rw [Method.run_bind_of_ok hrun] at h
        cases h
        exact waits_ended _ _
  | cons envelope remaining =>
    cases h
    exact waits_waiting hframe

theorem safe_resumeRecover (hs : Grounded L s) (frame : Service.RecoverFrame)
    (hframe : KeptJobs L s.jobs (recoverJobs frame)) (a : Answers)
    (env : Env) :
    Safe L false (resumeRecover M L.store config frame a env) s
      (Waits recoverJobs L) := by
  unfold resumeRecover
  refine safe_bind (safe_recoverClaim M config hs frame hframe a env)
    fun next t _ ht hnext => ?_
  have hsafe : Safe L false
      (onService (Service.nextClaim frame.remaining next)) t
      fun _ _ => True :=
    safe_onService (Service.tames_nextClaim _ fun _ h => h) ht hnext
  obtain ⟨hgrows, hsound, -⟩ := hsafe
  exact ⟨hgrows, hsound, waits_nextClaim hnext t.service⟩

-- ---------- processing

theorem safe_attachRun (hs : Grounded L s) (hfresh : Fresh L env s.jobs)
    (registration : TeammateRegistration) (claimed : MailboxEnvelope)
    (runId : String) (next : TeammateStateSnapshot) :
    Safe L true (attachRun L.store config registration claimed runId next
      env) s fun run jobs => KeptJobs L jobs [run.taskId] := by
  unfold attachRun
  refine safe_bind (Q := fun _ jobs => Fresh L env jobs)
    ⟨Grows.refl _, ⟨hs.held, fun _ => Or.inl rfl⟩, fun _ _ => hfresh⟩
    fun _ t _ ht hfresh => ?_
  refine safe_bind (safe_createProjectionJob ht hfresh _ _ _)
    fun taskId t _ ht _ => ?_
  refine safe_bind (safe_updateProjectionJob ht taskId _ _ _ _ env).created
    fun _ t _ ht hkept => ?_
  refine safe_bind (safe_onService
    (Service.tames_setProjection _ (fun _ h => h) _ _ _) ht hkept)
    fun _ u hgrows hu _ => ?_
  exact safe_pure hu (hkept.mono hgrows)

theorem safe_onService_fresh {m : Service.Call ι κ α}
    (hm : Service.Tames [] m) (hs : Grounded L s) (h : Fresh L env s.jobs) :
    Safe L creates (onService m) s fun _ jobs => Fresh L env jobs := by
  have hsafe : Safe L creates (onService m) s fun _ _ => True :=
    safe_onService_nil hm hs
  exact ⟨hsafe.grows, hsafe.sound, fun _ _ => h⟩

theorem safe_prepareRun (hs : Grounded L s) (hfresh : Fresh L env s.jobs)
    (registration : TeammateRegistration) (claimed : MailboxEnvelope)
    (a : Answers) :
    Safe L true (prepareRun M L.store config registration claimed a env) s
      fun run jobs => KeptJobs L jobs [run.taskId] := by
  unfold prepareRun
  refine safe_bind (Q := fun _ jobs => Fresh L env jobs)
    (safe_lift hs fun _ _ => hfresh) fun request t _ ht hfresh => ?_
  refine safe_bind (Q := fun _ jobs => Fresh L env jobs)
    (safe_lift ht fun _ _ => hfresh) fun runId t _ ht hfresh => ?_
  unfold linkRun
  refine safe_bind
    (safe_onService_fresh (Service.tames_onMailbox _) ht hfresh)
    fun linked t _ ht hfresh => ?_
  refine safe_bind (safe_onService_fresh (Service.tames_snapshot M) ht hfresh)
    fun found t _ ht hfresh => ?_
  exact safe_attachRun config ht hfresh _ _ _ _

theorem waits_afterShutdown (result : Option String)
    (frame : Option Service.CompleteFrame) (jobs : JobsState σ) :
    Waits processJobs L (Service.afterShutdown result frame) jobs := by
  cases frame with
  | none => exact waits_ended _ _
  | some frame => exact waits_waiting (keptJobs_nil _)

section

variable (hs : Grounded L s)
include hs

theorem safe_claimAndPrepare (hfresh : Fresh L env s.jobs) (a : Answers) :
    Safe L true (claimAndPrepare M L.store config a env) s
      (Waits processJobs L) := by
  unfold claimAndPrepare
  refine safe_bind
    (safe_onService_fresh (Service.tames_claimWork M config a) hs hfresh)
    fun claiming t _ ht hfresh => ?_
  cases claiming with
  | nothing frame => exact safe_pure ht (waits_afterShutdown none frame _)
  | handed registration claimed =>
    refine safe_bind (safe_prepareRun M config ht hfresh _ _ a)
      fun run t _ ht hkept => ?_
    exact safe_pure ht (waits_waiting hkept)

theorem safe_afterRecover (hfresh : Fresh L env s.jobs) (a : Answers)
    (progress : Service.Progress (List TeammateRecoveryResult)
      Service.RecoverFrame) (hprogress : Waits recoverJobs L progress s.jobs)
    :
    Safe L true (afterRecover M L.store config a env progress) s
      (Waits processJobs L) := by
  cases progress with
  | ended results => exact safe_claimAndPrepare M config hs hfresh a
  | waiting frame =>
    exact safe_pure hs (waits_waiting (hprogress frame rfl))

theorem safe_processNextWorkItem (hfresh : Fresh L env s.jobs) (a : Answers) :
    Safe L true (processNextWorkItem M L.store config a env) s
      (Waits processJobs L) := by
  unfold processNextWorkItem
  refine safe_bind (safe_onService_fresh (Service.tames_read _) hs hfresh)
    fun recovered t _ ht hfresh => ?_
  split
  · exact safe_claimAndPrepare M config ht hfresh a
  · -- recovery creates no job, so the id of `uuid4` is still fresh
    obtain ⟨hgrows, hsound, hresult⟩ := safe_recover M config ht a env
    refine safe_bind (Q := fun progress jobs =>
      Fresh L env jobs ∧ Waits recoverJobs L progress jobs)
      ⟨hgrows.created, hsound, fun progress h =>
        ⟨hfresh.of_grows hgrows, hresult progress h⟩⟩
      fun progress t _ ht h => ?_
    exact safe_afterRecover M config ht h.1 a progress h.2

theorem safe_failRun (run : Service.RunFrame) (text : String) (a : Answers)
    (env : Env) :
    Safe L true (failRun M L.store config run text a env) s
      (Waits processJobs L) := by
  unfold failRun
  refine safe_bind (safe_onService_nil (Service.tames_onMailbox _) hs)
    fun settled t _ ht _ => ?_
  refine safe_bind (safe_onService_nil (Service.tames_writeSnapshot _) ht)
    fun _ t _ ht _ => ?_
  refine safe_bind
    (safe_updateProjectionJob ht run.taskId _ _ _ _ env).created
    fun _ t _ ht hkept => ?_
  refine safe_bind (safe_onService
    (Service.tames_setProjection _ (fun _ h => h) _ _ _) ht hkept)
    fun _ u hgrows hu _ => ?_
  exact safe_pure hu (waits_waiting (hkept.mono hgrows))

theorem safe_settleRun (run : Service.RunFrame) (status : String)
    (a : Answers) (env : Env) :
    Safe L true (settleRun M L.store config run status a env) s
      fun next jobs => KeptJobs L jobs [next.taskId] := by
  unfold settleRun
  refine safe_bind
    (safe_onService_nil (Service.tames_settleClaim M config run status a) hs)
    fun settled t _ ht _ => ?_
  refine safe_bind (safe_onService_nil (Service.tames_writeSnapshot _) ht)
    fun _ t _ ht _ => ?_
  refine safe_bind
    (safe_updateProjectionJob ht run.taskId _ _ _ _ env).created
    fun _ t _ ht hkept => ?_
  refine safe_bind (safe_onService
    (Service.tames_setProjection _ (fun _ h => h) _ _ _) ht hkept)
    fun _ u hgrows hu _ => ?_
  exact safe_pure hu (hkept.mono hgrows)

theorem safe_endRun (run : Service.RunFrame) (status : String) (a : Answers) :
    Safe L true (onService (Service.endRun M config run status a)) s
      (Waits processJobs L) := by
  have hsafe : Safe L true
      (onService (Service.endRun M config run status a)) s
      fun _ _ => True :=
    safe_onService_nil (Service.tames_endRun M config run status a) hs
  obtain ⟨hgrows, hsound, -⟩ := hsafe
  refine ⟨hgrows, hsound, fun progress h => ?_⟩
  replace h : ((Service.endRun M config run status a).run s.service).1
    = .ok progress := h
  unfold Service.endRun at h
  cases hreturned : answered a.returned with
  | error e =>
    rw [hreturned, Method.run_lift_error_bind] at h
    cases h
  | ok u =>
    rw [hreturned, Method.run_lift_ok_bind] at h
    split at h
    · cases h
      exact waits_ended _ _
    · cases hrun : (Service.completeShutdown M config _ a).run s.service with
      | mk r t =>
        cases r with
        | error e =>
          rw [Method.run_bind_of_error hrun] at h
          cases h
        | ok frame =>
          rw [Method.run_bind_of_ok hrun] at h
          cases h
          exact waits_afterShutdown _ _ _

theorem safe_resume (hfresh : Fresh L env s.jobs)
    (frame : Service.ProcessFrame)
    (hframe : KeptJobs L s.jobs (processJobs frame)) (a : Answers) :
    Safe L true (resume M L.store config frame a env) s
      (Waits processJobs L) := by
  have hstop : ∀ (run : Service.RunFrame) outcome
      (t : BoundService ι κ σ), Grounded L t → KeptJobs L t.jobs [run.taskId] →
      Safe L true (pure (.waiting (.stoppingHeartbeat run outcome)) :
        Call ι κ σ Service.Processing) t (Waits processJobs L) :=
    fun run outcome t ht hkept => safe_pure ht (waits_waiting hkept)
  cases frame with
  | recovering frame =>
    obtain ⟨hgrows, hsound, hresult⟩ :=
      safe_resumeRecover M config hs frame hframe a env
    refine safe_bind (Q := fun progress jobs =>
      Fresh L env jobs ∧ Waits recoverJobs L progress jobs)
      ⟨hgrows.created, hsound, fun progress h =>
        ⟨hfresh.of_grows hgrows, hresult progress h⟩⟩
      fun progress t _ ht h => ?_
    exact safe_afterRecover M config ht h.1 a progress h.2
  | completing frame result =>
    refine safe_bind
      (safe_onService_nil (Service.tames_resumeComplete config frame a) hs)
      fun frame t _ ht _ => ?_
    exact safe_pure ht (waits_afterShutdown result frame _)
  | dispatching run =>
    unfold resume
    dsimp only
    split
    · exact hstop run _ s hs hframe
    · exact hstop run _ s hs hframe
    · refine safe_tryExcept (safe_failRun M config hs run _ a env)
        fun e t hgrows ht => ?_
      exact hstop run _ t ht (KeptJobs.mono hframe hgrows)
  | notifyingFailure run error =>
    unfold resume
    dsimp only
    split
    · exact hstop run _ s hs hframe
    · exact hstop run _ s hs hframe
  | stoppingHeartbeat run outcome =>
    refine safe_bind (Q := fun _ _ => True)
      (safe_lift hs fun _ _ => trivial) fun status t _ ht _ => ?_
    refine safe_bind (safe_settleRun M config ht run status a env)
      fun next t _ ht hkept => ?_
    exact safe_pure ht (waits_waiting hkept)
  | notifying run status => exact safe_endRun M config hs run status a

end

end BoundService

end WeaveRuntime.Teammates
