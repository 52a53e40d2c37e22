/-
The times of a job.

A record is PENDING without times, starts at the first status that has
started and ends at each terminal one (`Marked`). Where the clock of the
segments never goes backwards, the times are in order (`Ordered`). Both
are kept by every update the gate lets through (`Patch.ages`), since an
update writes the moment of its own segment, and only where the record
has no earlier start.

A record that is written anew over another one would take over its times,
so each job id is created once (`CreatedOnce`). A service that is
restarted over its store goes on where it was: the calls that were
suspended are cancelled and the handlers unregistered, which are steps of
a run.
-/
import WeaveRuntime.Jobs.Absorbing

namespace WeaveRuntime.Jobs

open Lib
open Python

-- ========== the record

/-- Which times are set. -/
structure JobRecord.Marked (r : JobRecord) : Prop where
  started : r.startedAt.isSome = true ↔ r.status ≠ .pending
  ended : r.endedAt.isSome = true ↔ r.status.terminal = true

/-- The times that are set are in order. -/
structure JobRecord.InOrder (r : JobRecord) : Prop where
  createdStarted : ∀ t, r.startedAt = some t → r.createdAt.stamp ≤ t.stamp
  createdEnded : ∀ t, r.endedAt = some t → r.createdAt.stamp ≤ t.stamp
  startedEnded : ∀ t u, r.startedAt = some t → r.endedAt = some u →
    t.stamp ≤ u.stamp

/-- And none is after `now`. -/
structure JobRecord.Ordered (now : Datetime) (r : JobRecord) : Prop
    extends r.InOrder where
  created : r.createdAt.stamp ≤ now.stamp
  startedNow : ∀ t, r.startedAt = some t → t.stamp ≤ now.stamp
  endedNow : ∀ t, r.endedAt = some t → t.stamp ≤ now.stamp

structure JobRecord.Ages (now : Datetime) (r r' : JobRecord) : Prop where
  started : ∀ t, r.startedAt = some t → r'.startedAt = some t
  marked : r.Marked → r'.Marked
  ordered : r.Marked → r.Ordered now → r'.Ordered now

theorem JobRecord.Ages.refl (now : Datetime) (r : JobRecord) : r.Ages now r :=
  ⟨fun _ h => h, fun h => h, fun _ h => h⟩

variable {now : Datetime} {r : JobRecord}

theorem JobRecord.Ages.trans {r' r'' : JobRecord} (h : r.Ages now r')
    (h' : r'.Ages now r'') : r.Ages now r'' :=
  ⟨fun t ht => h'.started t (h.started t ht),
    fun hm => h'.marked (h.marked hm),
    fun hm ho => h'.ordered (h.marked hm) (h.ordered hm ho)⟩

theorem JobRecord.Ages.of_lifecycle {r' : JobRecord}
    (h : r'.lifecycle = r.lifecycle) : r.Ages now r' := by
  have hstatus : r'.status = r.status := congrArg Lifecycle.status h
  have hcreated : r'.createdAt = r.createdAt := congrArg Lifecycle.createdAt h
  have hstarted : r'.startedAt = r.startedAt := congrArg Lifecycle.startedAt h
  have hended : r'.endedAt = r.endedAt := congrArg Lifecycle.endedAt h
  refine ⟨?_, ?_, ?_⟩
  · intro t ht
    rw [hstarted, ht]
  · intro hm
    refine ⟨?_, ?_⟩
    · rw [hstarted, hstatus]
      exact hm.started
    · rw [hended, hstatus]
      exact hm.ended
  · intro _ ho
    refine ⟨⟨?_, ?_, ?_⟩, ?_, ?_, ?_⟩
    · rw [hcreated, hstarted]
      exact ho.createdStarted
    · rw [hcreated, hended]
      exact ho.createdEnded
    · rw [hstarted, hended]
      exact ho.startedEnded
    · rw [hcreated]
      exact ho.created
    · rw [hstarted]
      exact ho.startedNow
    · rw [hended]
      exact ho.endedNow

theorem startedAtAfter_of_ne (record : JobRecord) {status : JobStatus}
    (now : Datetime) (h : status ≠ .pending) :
    startedAtAfter record status now = some (record.startedAt.getD now) := by
  unfold startedAtAfter
  rw [if_pos]
  cases status <;> simp at h ⊢

theorem startedAtAfter_pending (record : JobRecord) (now : Datetime) :
    startedAtAfter record .pending now = record.startedAt := by
  simp [startedAtAfter]

theorem Patch.ages {current record : JobRecord}
    (h : Patch now current record) : current.Ages now record := by
  obtain heq | ⟨hleads, hcreated, hstarted, hended⟩ := h
  · exact .of_lifecycle heq
  -- what has started stays started, at the same moment
  have hkept : ∀ t, current.startedAt = some t →
      record.startedAt = some t := by
    intro t ht
    by_cases hpending : record.status = .pending
    · rw [hstarted, hpending, startedAtAfter_pending, ht]
    · rw [hstarted, startedAtAfter_of_ne current now hpending, ht]
      rfl
  have hmarked : current.Marked → record.Marked := by
    intro hm
    refine ⟨?_, ?_⟩
    · by_cases hpending : record.status = .pending
      · rw [hstarted, hpending, startedAtAfter_pending, hm.started]
        obtain heq | ⟨-, hne⟩ := hleads
        · rw [← heq, hpending]
        · exact absurd hpending hne
      · rw [hstarted, startedAtAfter_of_ne current now hpending]
        simp [hpending]
    · rw [hended]
      unfold endedAtAfter
      by_cases hterminal : record.status.terminal = true
      · simp [hterminal]
      · rw [if_neg hterminal, hm.ended]
        refine iff_of_false (fun hold => hterminal ?_) hterminal
        rw [hleads.eq_of_terminal hold]
        exact hold
  refine ⟨hkept, hmarked, fun hm ho => ?_⟩
  have hnew : ∀ t, record.startedAt = some t →
      current.startedAt = some t ∨ t = now := by
    intro t ht
    cases hold : current.startedAt with
    | some u =>
      rw [hkept u hold] at ht
      exact Or.inl ht
    | none =>
      by_cases hpending : record.status = .pending
      · rw [hstarted, hpending, startedAtAfter_pending, hold] at ht
        cases ht
      · rw [hstarted, startedAtAfter_of_ne current now hpending, hold] at ht
        exact Or.inr (Option.some.inj ht).symm
  -- an ending of an earlier segment is that of a record that stays ended
  have hend : ∀ t, record.endedAt = some t → t = now := by
    intro t ht
    by_cases hterminal : record.status.terminal = true
    · rw [hended] at ht
      unfold endedAtAfter at ht
      rw [if_pos hterminal] at ht
      exact (Option.some.inj ht).symm
    · have hset : record.endedAt.isSome = true := by rw [ht]; rfl
      exact absurd ((hmarked hm).ended.1 hset) hterminal
  have hfirst : record.createdAt.stamp ≤ now.stamp := hcreated ▸ ho.created
  have hstartNow : ∀ t, record.startedAt = some t → t.stamp ≤ now.stamp := by
    intro t ht
    obtain hold | rfl := hnew t ht
    · exact ho.startedNow t hold
    · exact Nat.le_refl _
  refine ⟨⟨?_, ?_, ?_⟩, hfirst, hstartNow, ?_⟩
  · intro t ht
    obtain hold | rfl := hnew t ht
    · rw [hcreated]
      exact ho.createdStarted t hold
    · exact hfirst
  · intro t ht
    obtain rfl := hend t ht
    exact hfirst
  · intro t u ht hu
    obtain rfl := hend u hu
    exact hstartNow t ht
  · intro t ht
    obtain rfl := hend t ht
    exact Nat.le_refl _

theorem JobRecord.Ordered.later {now' : Datetime} (h : r.Ordered now)
    (hle : now.stamp ≤ now'.stamp) : r.Ordered now' :=
  ⟨h.toInOrder, Nat.le_trans h.created hle,
    fun t ht => Nat.le_trans (h.startedNow t ht) hle,
    fun t ht => Nat.le_trans (h.endedNow t ht) hle⟩

theorem marked_new (h : r.lifecycle = ⟨.pending, now, none, none⟩) :
    r.Marked := by
  have hstatus : r.status = .pending := congrArg Lifecycle.status h
  have hstarted : r.startedAt = none := congrArg Lifecycle.startedAt h
  have hended : r.endedAt = none := congrArg Lifecycle.endedAt h
  refine ⟨?_, ?_⟩
  · rw [hstarted, hstatus]
    simp
  · rw [hended, hstatus]
    simp [JobStatus.terminal]

theorem ordered_new (h : r.lifecycle = ⟨.pending, now, none, none⟩) :
    r.Ordered now := by
  have hcreated : r.createdAt = now := congrArg Lifecycle.createdAt h
  have hstarted : r.startedAt = none := congrArg Lifecycle.startedAt h
  have hended : r.endedAt = none := congrArg Lifecycle.endedAt h
  refine ⟨⟨?_, ?_, ?_⟩, ?_, ?_, ?_⟩
  · intro t ht
    rw [hstarted] at ht
    cases ht
  · intro t ht
    rw [hended] at ht
    cases ht
  · intro t u ht
    rw [hstarted] at ht
    cases ht
  · rw [hcreated]
  · intro t ht
    rw [hstarted] at ht
    cases ht
  · intro t ht
    rw [hended] at ht
    cases ht

-- =========== the store

/-- A store that gives the lifecycle back that was written. -/
structure TimedJobStore (σ : Type) extends LawfulJobStore σ where
  lifecycle_of_get_upsert : ∀ {s record r},
    store.get (store.upsert s record) record.jobId = some r →
      r.lifecycle = record.lifecycle

def timedInMemory : TimedJobStore InMemoryJobStore where
  toLawfulJobStore := lawfulInMemory
  lifecycle_of_get_upsert {s record r} h := by
    have hself : (s.records.insert record.jobId record).get? record.jobId
        = some r := h
    rw [Dict.get?_insert_self] at hself
    cases hself
    rfl

def timedFiles (sha1Hex : String → String) :
    TimedJobStore (Dict String PyVal) where
  toLawfulJobStore := lawfulFiles sha1Hex
  lifecycle_of_get_upsert h := (get_upsert_fileJobStore rfl h).2

section Runs

variable {σ : Type} (L : TimedJobStore σ)

/-- What an update at `now` leaves was there, and has aged. -/
def Aging (now : Datetime) (s t : JobsState σ) : Prop :=
  ∀ jobId r', L.store.get t.store jobId = some r' →
    ∃ r, L.store.get s.store jobId = some r ∧ r.Ages now r'

variable {L}

theorem get_upsert_cases {s : JobsState σ} {record r : JobRecord}
    {jobId : String}
    (h : L.store.get (L.store.upsert s.store record) jobId = some r) :
    jobId = record.jobId ∧ r.lifecycle = record.lifecycle
      ∨ jobId ≠ record.jobId ∧ L.store.get s.store jobId = some r := by
  by_cases hid : jobId = record.jobId
  · subst hid
    exact Or.inl ⟨rfl, L.lifecycle_of_get_upsert h⟩
  · refine Or.inr ⟨hid, ?_⟩
    by_cases hname : L.name jobId = L.name record.jobId
    · rw [L.lawful.get_upsert_taken s.store record jobId hname hid] at h
      cases h
    · rwa [L.lawful.get_upsert_other s.store record jobId hname] at h

theorem updateRule_aging (now : Datetime) :
    UpdateRule L.toLawfulJobStore now (Aging L now) := by
  have hsame : ∀ s t : JobsState σ, t.store = s.store → Aging L now s t := by
    intro s t hst jobId r' hr'
    rw [hst] at hr'
    exact ⟨r', hr', .refl now r'⟩
  refine ⟨fun s => hsame s s rfl, ?_, fun s hs => hsame s _ rfl, ?_⟩
  · intro s t u hst htu jobId r' hr'
    obtain ⟨q, hq, haged⟩ := htu jobId r' hr'
    obtain ⟨r, hr, haged'⟩ := hst jobId q hq
    exact ⟨r, hr, haged'.trans haged⟩
  · intro s current record hstored hpatch jobId r' hr'
    obtain ⟨rfl, hlife⟩ | ⟨-, hget⟩ := get_upsert_cases hr'
    · exact ⟨current, hstored, hpatch.ages.trans (.of_lifecycle hlife)⟩
    · exact ⟨r', hget, .refl now r'⟩

variable {as : List Action} {s t : ServiceState σ}

theorem aging_step {a : Action} (hstep : (service L.store).step s a = some t)
    (hfresh : ∀ created, createdJobId a = some created →
      L.store.get s.jobs.store created = none) {jobId : String}
    {r' : JobRecord} (hr' : L.store.get t.jobs.store jobId = some r') :
    (∃ r, L.store.get s.jobs.store jobId = some r ∧ r.Ages a.now r')
      ∨ createdJobId a = some jobId
        ∧ r'.lifecycle = ⟨.pending, a.now, none, none⟩ := by
  obtain ⟨-, haging⟩ | ⟨created, record, hcreated, hwrite, hid, -, hlife⟩ :=
    service_step_cases (updateRule_aging (L := L) a.now) hstep
  · exact Or.inl (haging jobId r' hr')
  · rw [hwrite] at hr'
    obtain ⟨rfl, hsame⟩ | ⟨-, hget⟩ := get_upsert_cases hr'
    · refine Or.inr ⟨by rw [hcreated, hid], ?_⟩
      rw [hsame, hlife (hfresh created hcreated)]
    · exact Or.inl ⟨r', hget, .refl _ r'⟩

-- ================ runs

variable (L)

/-- The ids of the run are created once, and not before. -/
def CreatedOnce (s : ServiceState σ) (as : List Action) : Prop :=
  (as.filterMap createdJobId).Nodup
    ∧ ∀ created ∈ as.filterMap createdJobId,
      L.store.get s.jobs.store created = none

variable {L}

theorem CreatedOnce.first {a : Action} (h : CreatedOnce L s (a :: as))
    {created : String} (hcreated : createdJobId a = some created) :
    L.store.get s.jobs.store created = none := by
  refine h.2 created ?_
  rw [List.filterMap_cons_some hcreated]
  exact List.mem_cons_self

theorem CreatedOnce.step {a : Action} (h : CreatedOnce L s (a :: as))
    (hstep : (service L.store).step s a = some t) : CreatedOnce L t as := by
  have hlater : ∀ id, id ∈ as.filterMap createdJobId →
      L.store.get s.jobs.store id = none ∧ createdJobId a ≠ some id := by
    intro id hid
    cases hcreated : createdJobId a with
    | none =>
      refine ⟨h.2 id ?_, (Option.some_ne_none id).symm⟩
      rw [List.filterMap_cons_none hcreated]
      exact hid
    | some created =>
      have hnodup := h.1
      rw [List.filterMap_cons_some hcreated, List.nodup_cons] at hnodup
      refine ⟨h.2 id ?_, fun heq => ?_⟩
      · rw [List.filterMap_cons_some hcreated]
        exact List.mem_cons_of_mem _ hid
      · cases heq
        exact hnodup.1 hid
  refine ⟨?_, ?_⟩
  · refine h.1.sublist (List.Sublist.filterMap _ ?_)
    exact List.sublist_cons_self a as
  · intro id hid
    obtain ⟨hnone, hne⟩ := hlater id hid
    refine Option.eq_none_iff_forall_ne_some.2 fun r hr => ?_
    obtain ⟨q, hq, -⟩ | ⟨hcreated, -⟩ :=
      aging_step hstep (fun _ => h.first) hr
    · rw [hnone] at hq
      cases hq
    · exact hne hcreated

theorem CreatedOnce.front {p q : List Action} (h : CreatedOnce L s (p ++ q)) :
    CreatedOnce L s p := by
  refine ⟨?_, fun id hid => h.2 id ?_⟩
  · refine h.1.sublist (List.Sublist.filterMap _ ?_)
    exact List.sublist_append_left p q
  · rw [List.filterMap_append]
    exact List.mem_append_left _ hid

theorem CreatedOnce.rest {p q : List Action} (h : CreatedOnce L s (p ++ q))
    (hrun : (service L.store).run s p = some t) : CreatedOnce L t q := by
  induction p generalizing s with
  | nil =>
    cases hrun
    exact h
  | cons a p ih =>
    obtain ⟨m, hstep, hrest⟩ := System.run_cons_eq_some.1 hrun
    exact ih (h.step hstep) hrest

theorem marked_run (honce : CreatedOnce L s as)
    (hrun : (service L.store).run s as = some t)
    (hs : ∀ jobId r, L.store.get s.jobs.store jobId = some r → r.Marked) :
    ∀ jobId r, L.store.get t.jobs.store jobId = some r → r.Marked := by
  induction as generalizing s with
  | nil =>
    cases hrun
    exact hs
  | cons a as ih =>
    obtain ⟨m, hstep, hrest⟩ := System.run_cons_eq_some.1 hrun
    refine ih (honce.step hstep) hrest fun jobId r' hr' => ?_
    obtain ⟨r, hr, hages⟩ | ⟨-, hnew⟩ :=
      aging_step hstep (fun _ => honce.first) hr'
    · exact hages.marked (hs jobId r hr)
    · exact marked_new hnew

theorem ordered_run (honce : CreatedOnce L s as)
    (hrun : (service L.store).run s as = some t)
    (hclock : as.Pairwise fun a b => a.now.stamp ≤ b.now.stamp)
    (hs : ∀ jobId r, L.store.get s.jobs.store jobId = some r →
      r.Marked ∧ r.InOrder ∧ ∀ a ∈ as, r.Ordered a.now) :
    ∀ jobId r, L.store.get t.jobs.store jobId = some r → r.InOrder := by
  induction as generalizing s with
  | nil =>
    cases hrun
    exact fun jobId r hr => (hs jobId r hr).2.1
  | cons a as ih =>
    obtain ⟨m, hstep, hrest⟩ := System.run_cons_eq_some.1 hrun
    rw [List.pairwise_cons] at hclock
    refine ih (honce.step hstep) hrest hclock.2 fun jobId r' hr' => ?_
    have hnow : r'.Marked ∧ r'.Ordered a.now := by
      obtain ⟨r, hr, hages⟩ | ⟨-, hnew⟩ :=
        aging_step hstep (fun _ => honce.first) hr'
      · obtain ⟨hmarked, -, hordered⟩ := hs jobId r hr
        exact ⟨hages.marked hmarked,
          hages.ordered hmarked (hordered a List.mem_cons_self)⟩
      · exact ⟨marked_new hnew, ordered_new hnew⟩
    exact ⟨hnow.1, hnow.2.toInOrder,
      fun b hb => hnow.2.later (hclock.1 b hb)⟩

theorem started_run (honce : CreatedOnce L s as)
    (hrun : (service L.store).run s as = some t) {jobId : String}
    (hold : jobId ∉ as.filterMap createdJobId) {r' : JobRecord}
    (hr' : L.store.get t.jobs.store jobId = some r') :
    ∃ r, L.store.get s.jobs.store jobId = some r
      ∧ ∀ time, r.startedAt = some time → r'.startedAt = some time := by
  induction as generalizing s with
  | nil =>
    cases hrun
    exact ⟨r', hr', fun _ h => h⟩
  | cons a as ih =>
    obtain ⟨m, hstep, hrest⟩ := System.run_cons_eq_some.1 hrun
    have hlater : jobId ∉ as.filterMap createdJobId := by
      intro hmem
      refine hold ((List.Sublist.filterMap _ ?_).subset hmem)
      exact List.sublist_cons_self a as
    obtain ⟨q, hq, hkept⟩ := ih (honce.step hstep) hrest hlater
    obtain ⟨r, hr, hages⟩ | ⟨hcreated, -⟩ :=
      aging_step hstep (fun _ => honce.first) hq
    · exact ⟨r, hr, fun time ht => hkept time (hages.started time ht)⟩
    · refine absurd ?_ hold
      rw [List.filterMap_cons_some hcreated]
      exact List.mem_cons_self

variable (L)

/-- **Timestamps.** In a run from an empty store that creates each id once,
every stored record has a start exactly when it has left PENDING and an
end exactly when it is terminal; a start stays; and the times are in order
under a clock that never goes backwards. -/
theorem job_timestamps_follow_lifecycle {s₀ : ServiceState σ}
    {as : List Action}
    (hempty : ∀ jobId, L.store.get s₀.jobs.store jobId = none)
    (honce : (as.filterMap createdJobId).Nodup) :
    (∀ s, (service L.store).Visits s₀ as s → ∀ jobId r,
        L.store.get s.jobs.store jobId = some r →
        (r.endedAt.isSome = true ↔ r.status.terminal = true)
          ∧ (r.startedAt.isSome = true ↔ r.status ≠ .pending))
      ∧ (∀ s t, (service L.store).Passes s₀ as s t → ∀ jobId r r',
        L.store.get s.jobs.store jobId = some r →
        L.store.get t.jobs.store jobId = some r' →
        ∀ time, r.startedAt = some time → r'.startedAt = some time)
      ∧ ((as.Pairwise fun a b => a.now.stamp ≤ b.now.stamp) →
        ∀ s, (service L.store).Visits s₀ as s → ∀ jobId r,
          L.store.get s.jobs.store jobId = some r → r.InOrder) := by
  have hcreated : CreatedOnce L s₀ as := ⟨honce, fun id _ => hempty id⟩
  have hnone : ∀ {P : JobRecord → Prop} jobId r,
      L.store.get s₀.jobs.store jobId = some r → P r := by
    intro P jobId r hr
    rw [hempty jobId] at hr
    cases hr
  refine ⟨?_, ?_, ?_⟩
  · intro s hvisits jobId r hr
    obtain ⟨p, q, rfl, hrun⟩ := hvisits
    have hmarked := marked_run hcreated.front hrun hnone jobId r hr
    exact ⟨hmarked.ended, hmarked.started⟩
  · intro s t hpasses jobId r r' hr hr'
    obtain ⟨p, q, rest, rfl, hrun, hrun'⟩ := hpasses
    have hq : CreatedOnce L s q := hcreated.front.rest hrun
    -- what is there is not created again
    have hold : jobId ∉ q.filterMap createdJobId := by
      intro hmem
      have hgone := hq.2 jobId hmem
      rw [hr] at hgone
      cases hgone
    obtain ⟨r₁, hr₁, hkept⟩ := started_run hq hrun' hold hr'
    cases hr.symm.trans hr₁
    exact hkept
  · intro hclock s hvisits
    obtain ⟨p, q, rfl, hrun⟩ := hvisits
    exact ordered_run hcreated.front hrun
      (List.pairwise_append.1 hclock).1 hnone

end Runs

-- ===== a job that ends

/-- A job is submitted and its executor has done it. -/
theorem job_timestamps_follow_lifecycle_completed : ∃ s r,
    (service inMemoryJobStore).Visits ⟨⟨InMemoryJobStore.empty, []⟩, []⟩
      (submittedTwice.take 2) s
    ∧ inMemoryJobStore.get s.jobs.store "job-1" = some r
    ∧ r.endedAt.isSome = true ∧ r.startedAt.isSome = true ∧ r.InOrder := by
  have hempty : ∀ jobId, inMemoryJobStore.get (ServiceState.mk
      ⟨InMemoryJobStore.empty, []⟩ []).jobs.store jobId = none :=
    fun _ => rfl
  have honce : ((submittedTwice.take 2).filterMap createdJobId).Nodup :=
    List.nodup_singleton _
  have hall := job_timestamps_follow_lifecycle timedInMemory hempty honce
  have hclock : (submittedTwice.take 2).Pairwise
      fun a b => a.now.stamp ≤ b.now.stamp := by decide
  refine ⟨_, _, System.Visits.finish rfl, rfl, ?_, ?_, ?_⟩
  · exact (hall.1 _ (System.Visits.finish rfl) "job-1" _ rfl).1.2 rfl
  · exact (hall.1 _ (System.Visits.finish rfl) "job-1" _ rfl).2.2
      (by decide)
  · exact hall.2.2 hclock _ (System.Visits.finish rfl) "job-1" _ rfl

end WeaveRuntime.Jobs
