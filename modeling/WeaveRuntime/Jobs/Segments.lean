/-
What a segment of a call does to the store.

Every method that updates a record reads the record again in the same
segment, passes the new status through the gate and writes the record
back with the times that go with the status (`Patch`). So a relation that
such a write moves along is one that every segment moves along which only
updates: `UpdateRule` is what is asked of the relation, and
`evolves_start` and `evolves_resume` are what it gives.

The two methods that write a NEW record, `submit` and
`create_or_update_compat`, ask no one (`start_creates`).
-/
import WeaveRuntime.Jobs.Service

namespace WeaveRuntime.Jobs

open Lib
open Lib.Method
open Python

-- ============= patches

/-- Where the gate lets a status go, in one phase or another. -/
def JobStatus.Leads (current next : JobStatus) : Prop :=
  next = current ∨ current.terminal = false ∧ next ≠ .pending

theorem leads_of_gate {current proposed next : JobStatus} {phase : Phase}
    {jobId : String}
    (h : validateJobTransition current proposed phase jobId = .ok next) :
    current.Leads next := by
  obtain rfl := validateJobTransition_eq_ok h
  unfold validateJobTransition at h
  split at h
  · next heq => exact Or.inl heq.symm
  · next hne =>
    split at h
    · cases h
    · next hopen =>
      split at h
      · next hallowed =>
        refine Or.inr ⟨by simpa using hopen, fun hpending => ?_⟩
        -- only a PENDING record may be PENDING next
        subst hpending
        cases phase <;> cases current <;> simp [allowed] at hallowed hne
      · cases h

theorem leads_of_compatStatus {current : JobRecord}
    {status : Option JobStatus} {next : JobStatus}
    (h : compatStatus current status = .ok next) :
    current.status.Leads next := by
  unfold compatStatus at h
  split at h
  · exact Or.inl (Except.ok.inj h).symm
  · exact leads_of_gate h

theorem JobStatus.Leads.eq_of_terminal {current next : JobStatus}
    (h : current.Leads next) (hterminal : current.terminal = true) :
    next = current := by
  obtain heq | ⟨hopen, -⟩ := h
  · exact heq
  · rw [hterminal] at hopen
    cases hopen

/-- The record is the stored one with a status the gate lets through and
the times of that moment, or its lifecycle is the stored one's. -/
def Patch (now : Datetime) (current record : JobRecord) : Prop :=
  record.lifecycle = current.lifecycle
    ∨ current.status.Leads record.status
      ∧ record.createdAt = current.createdAt
      ∧ record.startedAt = startedAtAfter current record.status now
      ∧ record.endedAt = endedAtAfter current record.status now

theorem Patch.leads {now : Datetime} {current record : JobRecord}
    (h : Patch now current record) : current.status.Leads record.status := by
  obtain heq | ⟨hleads, -⟩ := h
  · exact Or.inl (congrArg Lifecycle.status heq)
  · exact hleads

-- ============ the rule

section Segments

variable {σ : Type} (L : LawfulJobStore σ)

/-- What makes a relation hold of every segment that only updates. -/
structure UpdateRule (now : Datetime)
    (R : JobsState σ → JobsState σ → Prop) : Prop where
  refl : ∀ s, R s s
  trans : ∀ s t u, R s t → R t u → R s u
  handlers : ∀ s hs, R s { s with compatStopHandlers := hs }
  write : ∀ s current record,
    L.store.get s.store record.jobId = some current →
    Patch now current record →
    R s { s with store := L.store.upsert s.store record }

/-- The record an action writes anew, if it writes one. -/
def createdJobId : Action → Option String
  | .call (.createOrUpdateCompat jobId _ _ _) _ => some jobId
  | .call (.submit request hasContext) env =>
    (checkSubmit env request hasContext).toOption.map fun _ =>
      submittedJobId env request
  | _ => none

/-- The clock of a segment. -/
def Action.now : Action → Datetime
  | .call _ env => env.now
  | .resume _ _ env => env.now

variable {L}

-- ========= the methods

theorem run_getSync (jobId : String) (s : JobsState σ) :
    (getSync L.store jobId none).run s
      = (.ok (L.store.get s.store jobId), s) := by
  have hfilter : (L.store.get s.store jobId).filter
      (fun record => ((none : Option JobScopeFilter).map
        fun f => f.accepts record).getD true)
      = L.store.get s.store jobId := by
    cases L.store.get s.store jobId <;> rfl
  exact congrArg (fun o => (Except.ok o, s)) hfilter

variable {env : Env} {R : JobsState σ → JobsState σ → Prop}

section

variable (h : UpdateRule L env.now R)
include h

theorem UpdateRule.evolves_update (jobId : String)
    {rest : JobRecord → JobMethod σ JobRecord}
    (hrest : ∀ current s, L.store.get s.store jobId = some current →
      R s ((rest current).run s).2) :
    Evolves R (requireRecord L.store jobId >>= rest) := by
  intro s
  have hread : (requireRecord L.store jobId).run s
      = (orRaise (L.store.get s.store jobId) (.keyError jobId), s) := by
    unfold requireRecord
    rw [run_bind_of_ok (run_getSync jobId s)]
    rfl
  cases hget : L.store.get s.store jobId with
  | none =>
    rw [hget] at hread
    rw [run_bind_of_error hread]
    exact h.refl s
  | some current =>
    rw [hget] at hread
    rw [run_bind_of_ok hread]
    exact hrest current s hget

theorem UpdateRule.gated {jobId : String} {current : JobRecord}
    {s : JobsState σ} (hget : L.store.get s.store jobId = some current)
    {gate : Except Raised JobStatus}
    (hgate : ∀ next, gate = .ok next → current.status.Leads next)
    {rest : JobStatus → JobMethod σ JobRecord}
    (hrest : ∀ next, ∃ record, ((rest next).run s).2
        = { s with store := L.store.upsert s.store record }
      ∧ record.jobId = current.jobId
      ∧ record.lifecycle = ⟨next, current.createdAt,
          startedAtAfter current next env.now,
          endedAtAfter current next env.now⟩) :
    R s ((Method.lift gate >>= rest).run s).2 := by
  cases hnext : gate with
  | error e => exact h.refl s
  | ok next =>
    obtain ⟨record, hwrite, hid, hlife⟩ := hrest next
    have hstored : L.store.get s.store record.jobId = some current := by
      rw [hid, L.lawful.jobId_of_get hget]
      exact hget
    have hstatus : record.status = next := congrArg Lifecycle.status hlife
    have hpatch : Patch env.now current record := by
      refine Or.inr ⟨?_, ?_, ?_, ?_⟩
      · rw [hstatus]
        exact hgate next hnext
      · exact congrArg Lifecycle.createdAt hlife
      · rw [hstatus]
        exact congrArg Lifecycle.startedAt hlife
      · rw [hstatus]
        exact congrArg Lifecycle.endedAt hlife
    rw [run_lift_ok_bind, hwrite]
    exact h.write s current record hstored hpatch

theorem evolves_applyStartResult (jobId : String) (result : JobStartResult) :
    Evolves R (applyStartResult L.store env jobId result) := by
  refine h.evolves_update jobId fun current s hget => ?_
  refine h.gated hget (fun next hnext => leads_of_gate hnext) ?_
  exact fun next => ⟨_, rfl, rfl, rfl⟩

theorem evolves_applyStopResult (jobId : String) (result : JobStopResult) :
    Evolves R (applyStopResult L.store env jobId result) := by
  refine h.evolves_update jobId fun current s hget => ?_
  refine h.gated hget (fun next hnext => leads_of_gate hnext) ?_
  exact fun next => ⟨_, rfl, rfl, rfl⟩

theorem evolves_applyRecoveryResult (jobId : String)
    (result : JobRecoveryResult) :
    Evolves R (applyRecoveryResult L.store env jobId result) := by
  refine h.evolves_update jobId fun current s hget => ?_
  refine h.gated hget (fun next hnext => leads_of_gate hnext) ?_
  exact fun next => ⟨_, rfl, rfl, rfl⟩

theorem evolves_updateCompat (jobId : String) (changes : CompatChanges) :
    Evolves R (updateCompat L.store env jobId changes) := by
  refine h.evolves_update jobId fun current s hget => ?_
  refine h.gated hget (fun next hnext => leads_of_compatStatus hnext) ?_
  exact fun next => ⟨_, rfl, rfl, rfl⟩

theorem UpdateRule.withStoppable {s : JobsState σ} {jobId : String}
    {record : JobRecord} (hget : L.store.get s.store jobId = some record)
    (stoppable : Bool) :
    R s { s with
      store := L.store.upsert s.store (withStoppable record stoppable) } := by
  have hstored : L.store.get s.store record.jobId = some record := by
    rw [L.lawful.jobId_of_get hget]
    exact hget
  exact h.write s record (Jobs.withStoppable record stoppable) hstored
    (Or.inl rfl)

theorem evolves_registerCompatStopHandler (jobId : String) :
    Evolves R (registerCompatStopHandler L.store jobId) := by
  intro s
  unfold registerCompatStopHandler
  rw [run_write_bind, run_bind_of_ok (run_getSync jobId _)]
  have hhandlers := h.handlers s (jobId :: s.compatStopHandlers)
  cases hget : L.store.get s.store jobId with
  | none => exact hhandlers
  | some record =>
    dsimp only
    split
    · exact hhandlers
    · have hmarked := h.withStoppable (s := { s with
        compatStopHandlers := jobId :: s.compatStopHandlers }) hget true
      exact h.trans _ _ _ hhandlers hmarked

end

-- ==== stop and recover

theorem run_getSync_scoped (jobId : String) (scope : Option JobScopeFilter)
    (s : JobsState σ) :
    ∃ found, (getSync L.store jobId scope).run s = (.ok found, s)
      ∧ ∀ record, found = some record →
        L.store.get s.store jobId = some record := by
  refine ⟨_, rfl, fun record h => ?_⟩
  exact (Option.filter_eq_some_iff.1 h).1

theorem found_of_checkStop {jobId : String} {found : Option JobRecord}
    {record : JobRecord} (h : checkStop jobId found = .ok record) :
    found = some record := by
  obtain ⟨r, hr, h⟩ := bind_eq_ok.1 h
  obtain ⟨-, -, h⟩ := bind_eq_ok.1 h
  obtain ⟨-, -, h⟩ := bind_eq_ok.1 h
  cases h
  exact orRaise_eq_ok.1 hr

theorem evolves_returning (h : UpdateRule L env.now R)
    {m : JobMethod σ JobRecord} (hm : Evolves R m) :
    Evolves R (returning m) := by
  apply evolves_bind h.trans hm
  exact fun record => evolves_pure h.refl _

theorem state_returning (m : JobMethod σ JobRecord) (s : JobsState σ) :
    ((returning m).run s).2 = (m.run s).2 := by
  unfold returning
  cases hm : m.run s with
  | mk r t =>
    cases r with
    | ok record => rw [run_bind_of_ok hm]; rfl
    | error e => rw [run_bind_of_error hm]

section

variable (h : UpdateRule L env.now R)
include h

theorem evolves_finishing {m : JobMethod σ Unit} (hm : Evolves R m) :
    Evolves R (finishing m) := by
  apply evolves_bind h.trans hm
  exact fun _ => evolves_pure h.refl _

theorem evolves_stop (jobId : String) (scope : Option JobScopeFilter) :
    Evolves R (stop L.store env jobId scope) := by
  intro s
  obtain ⟨found, hread, hfound⟩ :=
    run_getSync_scoped (L := L) jobId scope s
  unfold stop
  rw [run_bind_of_ok hread]
  cases hcheck : checkStop jobId found with
  | error e => exact h.refl s
  | ok record =>
    have hget := hfound record (found_of_checkStop hcheck)
    rw [run_lift_ok_bind]
    show R s ((hasCompatStopHandler jobId >>= _).run s).2
    unfold hasCompatStopHandler
    rw [run_read_bind]
    split
    · -- the executor is asked; nothing is written before
      refine evolves_bind h.trans (evolves_lift h.refl _) (fun _ => ?_) s
      exact evolves_pure h.refl _
    · split
      · refine evolves_bind h.trans (evolves_applyStopResult h jobId _)
          (fun _ => ?_) s
        exact evolves_pure h.refl _
      · exact h.withStoppable hget false

theorem evolves_stopAfterHandler (jobId : String) (accepted : JobRecord) :
    Evolves R (stopAfterHandler L.store env jobId accepted) := by
  intro s
  unfold stopAfterHandler
  rw [run_bind_of_ok (run_getSync jobId s)]
  cases L.store.get s.store jobId with
  | none => exact h.refl s
  | some record =>
    dsimp only
    split
    · exact evolves_applyStopResult h jobId _ s
    · exact h.refl s

theorem evolves_recoverNext (records recovered : List JobRecord) :
    Evolves R (recoverNext (σ := σ) env records recovered) := by
  induction records generalizing recovered with
  | nil => exact evolves_pure h.refl _
  | cons record rest ih =>
    unfold recoverNext
    split
    · apply evolves_bind h.trans (evolves_lift h.refl _)
      exact fun _ => evolves_pure h.refl _
    · exact ih recovered

-- ======== the segments

theorem evolves_resume (call : Suspended) (answer : Answer) :
    Evolves R (resume L.store env call answer) := by
  unfold resume
  split
  · exact evolves_returning h (evolves_applyStartResult h _ _)
  · exact evolves_bind h.trans (evolves_applyStartResult h _ _)
      fun _ => evolves_raise h.refl _
  · exact evolves_returning h (evolves_applyStopResult h _ _)
  · exact evolves_returning h (evolves_stopAfterHandler h _ _)
  · split
    · exact evolves_recoverNext h _ _
    · exact evolves_bind h.trans (evolves_applyRecoveryResult h _ _)
        fun _ => evolves_recoverNext h _ _
  · exact evolves_raise h.refl _
  · exact evolves_raise h.refl _

theorem evolves_start (op : Op) (s : JobsState σ)
    (hnone : createdJobId (.call op env) = none) :
    R s ((start L.store env op).run s).2 := by
  cases op with
  | createOrUpdateCompat jobId summary description metadata => cases hnone
  | updateCompat jobId changes =>
    exact evolves_returning h (evolves_updateCompat h jobId changes) s
  | registerCompatStopHandler jobId =>
    exact evolves_finishing h (evolves_registerCompatStopHandler h jobId) s
  | unregisterCompatStopHandler jobId => exact h.handlers s _
  | submit request hasContext =>
    have hnone : (checkSubmit env request hasContext).toOption.map _ = _ :=
      hnone
    cases hcheck : checkSubmit env request hasContext with
    | ok u =>
      rw [hcheck] at hnone
      cases hnone
    | error e =>
      show R s ((submit L.store env request hasContext).run s).2
      unfold submit
      rw [hcheck]
      exact h.refl s
  | stop jobId scope => exact evolves_stop h jobId scope s
  | recoverInflight => exact evolves_recoverNext h _ _ s
  | applyStartResult jobId result =>
    exact evolves_returning h (evolves_applyStartResult h jobId result) s
  | applyStopResult jobId result =>
    exact evolves_returning h (evolves_applyStopResult h jobId result) s
  | applyRecoveryResult jobId result =>
    exact evolves_returning h (evolves_applyRecoveryResult h jobId result) s

end

/-- A call that writes a new record writes it as PENDING, with the times
of what the store held under its id. -/
theorem start_creates {op : Op} {created : String} (s : JobsState σ)
    (h : createdJobId (.call op env) = some created) :
    ∃ record, ((start L.store env op).run s).2
        = { s with store := L.store.upsert s.store record }
      ∧ record.jobId = created ∧ record.status = .pending
      ∧ (L.store.get s.store created = none →
        record.lifecycle = ⟨.pending, env.now, none, none⟩) := by
  cases op with
  | createOrUpdateCompat jobId summary description metadata =>
    obtain rfl : jobId = created := Option.some.inj h
    show ∃ record, ((returning (createOrUpdateCompat L.store env jobId
      summary description metadata)).run s).2 = _ ∧ _
    rw [state_returning]
    unfold createOrUpdateCompat
    rw [run_bind_of_ok (run_getSync jobId s)]
    refine ⟨_, rfl, rfl, rfl, fun hnone => ?_⟩
    rw [hnone]
    rfl
  | submit request hasContext =>
    have h : (checkSubmit env request hasContext).toOption.map _ = _ := h
    cases hcheck : checkSubmit env request hasContext with
    | error e =>
      rw [hcheck] at h
      cases h
    | ok u =>
      rw [hcheck] at h
      cases h
      refine ⟨pendingRecord env request, ?_, rfl, rfl, fun _ => rfl⟩
      show ((submit L.store env request hasContext).run s).2 = _
      unfold submit
      rw [hcheck]
      rfl
  | _ => cases h

theorem service_step_cases {s t : ServiceState σ} {a : Action}
    (h : UpdateRule L a.now R) (hstep : (service L.store).step s a = some t) :
    createdJobId a = none ∧ R s.jobs t.jobs
      ∨ ∃ created record, createdJobId a = some created
        ∧ t.jobs = { s.jobs with
            store := L.store.upsert s.jobs.store record }
        ∧ record.jobId = created ∧ record.status = .pending
        ∧ (L.store.get s.jobs.store created = none →
          record.lifecycle = ⟨.pending, a.now, none, none⟩) := by
  cases a with
  | resume index answer env =>
    refine Or.inl ⟨rfl, ?_⟩
    unfold service at hstep
    dsimp only at hstep
    split at hstep
    · cases hstep
    · next call _ =>
      split at hstep
      · cases hstep
        exact evolves_resume h call answer s.jobs
      · cases hstep
  | call op env =>
    have ht : t.jobs = ((start L.store env op).run s.jobs).2 := by
      cases hstep
      rfl
    rw [ht]
    cases hcreated : createdJobId (.call op env) with
    | none => exact Or.inl ⟨rfl, evolves_start h op s.jobs hcreated⟩
    | some created =>
      obtain ⟨record, hwrite, hrest⟩ :=
        start_creates (L := L) s.jobs hcreated
      exact Or.inr ⟨created, record, rfl, hwrite, hrest⟩

end Segments

end WeaveRuntime.Jobs
