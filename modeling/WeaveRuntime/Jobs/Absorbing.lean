/-
Terminal statuses.

An update passes the new status through the gate, which lets a terminal
status go nowhere, so a segment that only updates moves the store along
`Absorbs`, in which a terminal status is kept (`updateRule_absorbs`).

The two methods that write a NEW record, `submit` and
`create_or_update_compat`, ask no one: the record is PENDING whatever the
store holds under its name. So a run keeps every terminal status exactly
when none of its calls writes a new record over a terminal one
(`terminal_status_kept`).
-/
import WeaveRuntime.Jobs.Segments

namespace WeaveRuntime.Jobs

open Lib

section Absorbs

variable {σ : Type} (L : LawfulJobStore σ)

/-- The later store keeps the terminal statuses of the earlier one. -/
def Absorbs (s t : JobsState σ) : Prop :=
  ∀ jobId record, L.store.get s.store jobId = some record →
    record.terminal = true →
    ∃ r, L.store.get t.store jobId = some r ∧ r.status = record.status

/-- The action writes a new record where a terminal one is kept. -/
def ReplacesTerminal (s : ServiceState σ) (a : Action) : Prop :=
  ∃ created jobId record, createdJobId a = some created
    ∧ L.store.get s.jobs.store jobId = some record
    ∧ record.terminal = true ∧ L.name jobId = L.name created

variable {L}

theorem Absorbs.refl (s : JobsState σ) : Absorbs L s s :=
  fun _ record hget _ => ⟨record, hget, rfl⟩

theorem Absorbs.trans {s t u : JobsState σ} (hst : Absorbs L s t)
    (htu : Absorbs L t u) : Absorbs L s u := by
  intro jobId record hget hterminal
  obtain ⟨r, hr, hstatus⟩ := hst jobId record hget hterminal
  have hrt : r.terminal = true := by
    show r.status.terminal = true
    rw [hstatus]
    exact hterminal
  obtain ⟨r', hr', hstatus'⟩ := htu jobId r hr hrt
  exact ⟨r', hr', hstatus'.trans hstatus⟩

/-- The record is an update of the stored one that the gate lets
through. -/
structure Updates (s : JobsState σ) (current record : JobRecord) :
    Prop where
  stored : L.store.get s.store record.jobId = some current
  gated : current.terminal = true → record.status = current.status

theorem Updates.absorbs {s : JobsState σ} {current record : JobRecord}
    (h : Updates (L := L) s current record) :
    Absorbs L s { s with store := L.store.upsert s.store record } := by
  intro jobId old hget hterminal
  show ∃ r, L.store.get (L.store.upsert s.store record) jobId = some r ∧ _
  by_cases hid : jobId = record.jobId
  · subst hid
    obtain ⟨r, hr, hstatus⟩ := L.lawful.get_upsert h.stored
    rw [h.stored] at hget
    cases hget
    exact ⟨r, hr, hstatus.trans (h.gated hterminal)⟩
  · -- two ids that both have a record have two names
    have hname : L.name jobId ≠ L.name record.jobId :=
      fun hname => hid (L.lawful.eq_of_name hget h.stored hname)
    rw [L.lawful.get_upsert_other s.store record jobId hname]
    exact ⟨old, hget, rfl⟩

theorem updateRule_absorbs (now : Python.Datetime) :
    UpdateRule L now (Absorbs L) := by
  refine ⟨.refl, fun _ _ _ => .trans, fun s _ => .refl s, ?_⟩
  intro s current record hstored hpatch
  have hupdates : Updates (L := L) s current record :=
    ⟨hstored, hpatch.leads.eq_of_terminal⟩
  exact hupdates.absorbs

theorem absorbs_new {s : JobsState σ} {record : JobRecord}
    (h : ∀ jobId old, L.store.get s.store jobId = some old →
      old.terminal = true → L.name jobId ≠ L.name record.jobId) :
    Absorbs L s { s with store := L.store.upsert s.store record } := by
  intro jobId old hget hterminal
  refine ⟨old, ?_, rfl⟩
  show L.store.get (L.store.upsert s.store record) jobId = some old
  rw [L.lawful.get_upsert_other s.store record jobId
    (h jobId old hget hterminal), hget]

theorem not_absorbs_new {s : JobsState σ} {record old : JobRecord}
    {jobId : String} (hpending : record.status = .pending)
    (hget : L.store.get s.store jobId = some old)
    (hterminal : old.terminal = true)
    (hname : L.name jobId = L.name record.jobId) :
    ¬ Absorbs L s { s with store := L.store.upsert s.store record } := by
  intro h
  obtain ⟨r, hr, hstatus⟩ := h jobId old hget hterminal
  have hr' : L.store.get (L.store.upsert s.store record) jobId = some r := hr
  by_cases hid : jobId = record.jobId
  · subst hid
    have hnew := L.lawful.status_of_get_upsert hr'
    have hold : old.status.terminal = true := hterminal
    rw [← hstatus, hnew, hpending] at hold
    cases hold
  · rw [L.lawful.get_upsert_taken s.store record jobId hname hid] at hr'
    cases hr'

-- ============ the runs

/-- A step keeps the terminal statuses exactly when it writes no new record
over a terminal one. -/
theorem step_absorbs_iff {s t : ServiceState σ} {a : Action}
    (hstep : (service L.store).step s a = some t) :
    Absorbs L s.jobs t.jobs ↔ ¬ ReplacesTerminal L s a := by
  obtain ⟨hnone, habsorbs⟩ | ⟨created, record, hcreated, hwrite, hid,
    hpending, -⟩ := service_step_cases (updateRule_absorbs a.now) hstep
  · refine ⟨fun _ h => ?_, fun _ => habsorbs⟩
    obtain ⟨created, _, _, hcreated, -⟩ := h
    rw [hnone] at hcreated
    cases hcreated
  · rw [hwrite]
    refine ⟨fun habsorbs h => ?_, fun h => ?_⟩
    · obtain ⟨created', jobId, old, hcreated', hget, hterminal, hname⟩ := h
      rw [hcreated] at hcreated'
      cases hcreated'
      rw [← hid] at hname
      exact not_absorbs_new hpending hget hterminal hname habsorbs
    · refine absorbs_new fun jobId old hget hterminal hname => h ?_
      rw [hid] at hname
      exact ⟨created, jobId, old, hcreated, hget, hterminal, hname⟩

variable (L)

/-- The status of a job, once terminal, never changes again in a run
exactly when no call of the run writes a new record where a terminal one
is kept. -/
theorem terminal_status_kept (s₀ : ServiceState σ) (as : List Action) :
    (∀ s t, (service L.store).Passes s₀ as s t → ∀ jobId record,
        L.store.get s.jobs.store jobId = some record →
        record.status.terminal = true →
        (L.store.get t.jobs.store jobId).map (·.status)
          = some record.status)
      ↔ ∀ s a t, (service L.store).Takes s₀ as s a t →
        ¬ ReplacesTerminal L s a := by
  have hsteps : (∀ s t, (service L.store).Passes s₀ as s t →
        Absorbs L s.jobs t.jobs)
      ↔ ∀ s a t, (service L.store).Takes s₀ as s a t →
        Absorbs L s.jobs t.jobs :=
    System.passes_iff_takes
      (R := fun s t : ServiceState σ => Absorbs L s.jobs t.jobs)
      (fun s => .refl s.jobs) (fun _ _ _ => Absorbs.trans)
  have htakes : (∀ s a t, (service L.store).Takes s₀ as s a t →
        Absorbs L s.jobs t.jobs)
      ↔ ∀ s a t, (service L.store).Takes s₀ as s a t →
        ¬ ReplacesTerminal L s a := by
    refine forall_congr' fun s => forall_congr' fun a =>
      forall_congr' fun t => forall_congr' fun htake => ?_
    obtain ⟨p, q, -, -, hstep⟩ := htake
    exact step_absorbs_iff hstep
  rw [← htakes, ← hsteps]
  refine forall_congr' fun s => forall_congr' fun t =>
    forall_congr' fun _ => forall_congr' fun jobId =>
    forall_congr' fun record => forall_congr' fun _ =>
    forall_congr' fun _ => ?_
  rw [Option.map_eq_some_iff]

end Absorbs

-- ==== a job submitted twice

/-- A moment at which the one executor is registered. -/
def fixedEnv : Env where
  now := TaskLists.fixedEnv.now
  hex := TaskLists.fixedEnv.hex
  registered kind := kind == "agent"
  bound := true

/-- A submission under a chosen id. -/
def fixedRequest : JobSubmitRequest where
  executorKind := "agent"
  summary := "index"
  description := none
  sessionId := none
  teamId := none
  submittedBy := none
  projectionKind := none
  parentRunId := none
  parentTurnId := none
  requestedJobId := some "job-1"
  metadata := []
  capabilities := none
  sidecarRefs := []

/-- The executor has done the job at once. -/
def fixedStarted : JobStartResult where
  status := .completed
  capabilities := none
  metadata := []
  sidecarRefs := []
  result := none
  error := none

/-- The job is submitted, completes, and is submitted again. -/
def submittedTwice : List Action :=
  [.call (.submit fixedRequest false) fixedEnv,
    .resume 0 (.started fixedStarted) fixedEnv,
    .call (.submit fixedRequest false) fixedEnv]

/-- The second submission makes a completed job pending. -/
theorem completed_job_pending_again : ∃ s t,
    (service inMemoryJobStore).Passes
      ⟨⟨InMemoryJobStore.empty, []⟩, []⟩ submittedTwice s t
    ∧ (inMemoryJobStore.get s.jobs.store "job-1").map (·.status)
      = some .completed
    ∧ (inMemoryJobStore.get t.jobs.store "job-1").map (·.status)
      = some .pending :=
  ⟨_, _, ⟨submittedTwice.take 2, submittedTwice.drop 2, [], rfl, rfl, rfl⟩,
    rfl, rfl⟩

end WeaveRuntime.Jobs
