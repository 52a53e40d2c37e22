/-
What the background queues of the memory leave behind when no runner is
alive.

A pending payload is safe while a runner is registered that will look for
it (`Attended`), and a lock file while no run of this process has left it.
Both are lost by single steps. A payload is stranded by a runner that ends
without looking again: the extraction runner whose first job update raises,
the runner whose execution raises while more is pending, and the
consolidation runner that found nothing pending and has not yet
unregistered when the next payload is scheduled. A lock file stays where
anything but the merge raises between taking and releasing it.

`Orderly` names these steps, and `Attended` is the invariant of the runs
that take none of them.
-/
import WeaveRuntime.Memory.Background

namespace WeaveRuntime.Memory

open Lib

-- ======= one execution

namespace Execution

variable {x : Execution}

variable {c : Call} {file : Option LockFile}

theorem call_of_quiet (h : x.raises c = false) : x.call c = pure () := by
  unfold call
  rw [h]
  rfl

theorem call_of_raises (h : x.raises c = true) :
    x.call c = Method.raise ⟨c⟩ := by
  unfold call
  rw [if_pos h]

/-- The calls before the lock is asked for. -/
def opening : List Call :=
  [.resolveContext, .resolveMemoryConfig, .refreshManifest]

/-- The calls from the lock file to the merge. -/
def staging : List Call :=
  [.writeLock, .refreshActive, .pendingSessions, .buildProposals,
    .writeStaging, .writeCheckpoint, .writeLog, .snapshot]

/-- The calls of the handler, up to the release of the lock. -/
def failing : List Call :=
  [.restoreSnapshot, .writeFailedCheckpoint, .writeFailedLog, .releaseFailed]

def finishing : List Call :=
  [.markSessions, .writeSuccessCheckpoint, .writeSuccessLog, .releaseLock]

/-- None of the calls raises. -/
def Quiet (x : Execution) (calls : List Call) : Prop :=
  ∀ c ∈ calls, x.raises c = false

/-- The execution gets as far as creating the lock file. -/
def TakesLock (x : Execution) (file : Option LockFile) : Prop :=
  x.Quiet opening ∧ x.shouldRunConsolidation file = true
    ∧ x.raises .createLock = false ∧ x.lockFree file = true

def ReleasesLock (x : Execution) : Prop :=
  x.Quiet staging
    ∧ x.Quiet (if x.raises .mergeProposals then failing else finishing)

def calls (x : Execution) (file : Option LockFile) : List Call :=
  opening ++
    if x.shouldRunConsolidation file then
      .createLock ::
        if x.lockFree file then
          staging ++ .mergeProposals :: finishing ++ [.refreshSuccess]
        else [.refreshBlocked]
    else []

def Fails (x : Execution) (file : Option LockFile) : Prop :=
  ∃ c ∈ x.calls file, x.raises c = true

@[simp] theorem readConsolidationLock_written (owner : Option String) :
    readConsolidationLock (some ⟨owner, true⟩) = some owner := rfl

theorem releaseConsolidationLock_own (h : x.raises c = false) :
    (x.releaseConsolidationLock c).run (some ⟨some x.runId, true⟩)
      = (.ok (), none) := by
  unfold releaseConsolidationLock
  rw [call_of_quiet h]
  simp only [Method.run_pure_bind, Method.run_read_bind, id,
    readConsolidationLock_written]
  simp

theorem acquireConsolidationLock_free (hcreate : x.raises .createLock = false)
    (hfree : x.lockFree file = true) (hwrite : x.raises .writeLock = false) :
    x.acquireConsolidationLock.run file
      = (.ok true, some ⟨some x.runId, true⟩) := by
  unfold acquireConsolidationLock
  rw [call_of_quiet hcreate, call_of_quiet hwrite]
  simp only [Method.run_pure_bind, Method.run_read_bind, id, hfree,
    if_true, Method.run_write_bind]
  rfl

theorem acquireConsolidationLock_blocked
    (hcreate : x.raises .createLock = false)
    (hfree : x.lockFree file = false) :
    x.acquireConsolidationLock.run file = (.ok false, file) := by
  unfold acquireConsolidationLock
  rw [call_of_quiet hcreate]
  simp [hfree]

/-- A payload that is not written leaves the file without an owner. -/
example : ((⟨(· = .writeLock), "r1", true, false⟩ :
      Execution).acquireConsolidationLock.run none).2
    = some ⟨some "r1", false⟩ := by
  decide +kernel

theorem ensures_call_bind {α : Type}
    {g : Unit → Method (Option LockFile) Raised α}
    {Q : Except Raised α → Option LockFile → Prop}
    (hraises : x.raises c = true → Q (.error ⟨c⟩) file)
    (hquiet : x.raises c = false → (g ()).Ensures file Q) :
    (x.call c >>= g).Ensures file Q := by
  cases h : x.raises c with
  | true =>
    rw [call_of_raises h]
    exact hraises h
  | false =>
    rw [call_of_quiet h]
    exact hquiet h

theorem ensures_quiet_bind {α : Type}
    {g : Unit → Method (Option LockFile) Raised α}
    {Q : Except Raised α → Option LockFile → Prop} (hc : x.raises c = false)
    (hg : (g ()).Ensures file Q) : (x.call c >>= g).Ensures file Q :=
  ensures_call_bind (fun h => absurd (hc.symm.trans h) (by decide))
    fun _ => hg

theorem ensures_release_bind {α : Type}
    {g : Unit → Method (Option LockFile) Raised α}
    {Q : Except Raised α → Option LockFile → Prop} (hc : x.raises c = false)
    (hg : (g ()).Ensures none Q) :
    (x.releaseConsolidationLock c >>= g).Ensures
      (some ⟨some x.runId, true⟩) Q := by
  unfold Method.Ensures
  rw [Method.run_bind_of_ok (releaseConsolidationLock_own hc)]
  exact hg

theorem failConsolidation_releases {e : Raised} (h : x.Quiet failing) :
    (x.failConsolidation e).Ensures (some ⟨some x.runId, true⟩)
      fun r file => (∃ e', r = .error e') ∧ file = none := by
  unfold failConsolidation
  refine ensures_quiet_bind (h .restoreSnapshot (by decide)) ?_
  refine ensures_quiet_bind (h .writeFailedCheckpoint (by decide)) ?_
  refine ensures_quiet_bind (h .writeFailedLog (by decide)) ?_
  refine ensures_release_bind (h .releaseFailed (by decide)) ?_
  refine ensures_call_bind (fun _ => ?_) fun _ => ?_
  · exact ⟨⟨_, rfl⟩, rfl⟩
  · exact ⟨⟨_, rfl⟩, rfl⟩

theorem consolidateLocked_releases (h : x.ReleasesLock) :
    x.consolidateLocked.Ensures (some ⟨some x.runId, true⟩)
      fun _ file => file = none := by
  obtain ⟨hstaging, hrest⟩ := h
  unfold consolidateLocked
  refine ensures_quiet_bind (hstaging .refreshActive (by decide)) ?_
  refine ensures_quiet_bind (hstaging .pendingSessions (by decide)) ?_
  refine ensures_quiet_bind (hstaging .buildProposals (by decide)) ?_
  refine ensures_quiet_bind (hstaging .writeStaging (by decide)) ?_
  refine ensures_quiet_bind (hstaging .writeCheckpoint (by decide)) ?_
  refine ensures_quiet_bind (hstaging .writeLog (by decide)) ?_
  refine ensures_quiet_bind (hstaging .snapshot (by decide)) ?_
  cases hmerge : x.raises .mergeProposals with
  | true =>
    rw [if_pos hmerge] at hrest
    -- the handler has run, and what follows the merge does not
    refine Method.ensures_bind (P := fun r file =>
      (∃ e, r = .error e) ∧ file = none) ?_ ?_ ?_
    · rw [call_of_raises hmerge]
      exact failConsolidation_releases hrest
    · intro u _ hp
      obtain ⟨⟨e, he⟩, -⟩ := hp
      cases he
    · intro _ _ hp
      exact hp.2
  | false =>
    rw [hmerge] at hrest
    rw [call_of_quiet hmerge]
    refine ensures_quiet_bind (hrest .markSessions (by decide)) ?_
    refine ensures_quiet_bind
      (hrest .writeSuccessCheckpoint (by decide)) ?_
    refine ensures_quiet_bind (hrest .writeSuccessLog (by decide)) ?_
    refine ensures_release_bind (hrest .releaseLock (by decide)) ?_
    show Method.Ensures _ none _
    cases hr : x.raises .refreshSuccess with
    | true =>
      rw [call_of_raises hr]
      rfl
    | false =>
      rw [call_of_quiet hr]
      rfl

theorem consolidateLocked_returns
    (h : x.Quiet
      (staging ++ .mergeProposals :: finishing ++ [.refreshSuccess])) :
    x.consolidateLocked.Ensures (some ⟨some x.runId, true⟩)
      fun r _ => r = .ok () := by
  unfold consolidateLocked
  refine ensures_quiet_bind (h .refreshActive (by decide)) ?_
  refine ensures_quiet_bind (h .pendingSessions (by decide)) ?_
  refine ensures_quiet_bind (h .buildProposals (by decide)) ?_
  refine ensures_quiet_bind (h .writeStaging (by decide)) ?_
  refine ensures_quiet_bind (h .writeCheckpoint (by decide)) ?_
  refine ensures_quiet_bind (h .writeLog (by decide)) ?_
  refine ensures_quiet_bind (h .snapshot (by decide)) ?_
  rw [call_of_quiet (h .mergeProposals (by decide))]
  refine ensures_quiet_bind (h .markSessions (by decide)) ?_
  refine ensures_quiet_bind (h .writeSuccessCheckpoint (by decide)) ?_
  refine ensures_quiet_bind (h .writeSuccessLog (by decide)) ?_
  refine ensures_release_bind (h .releaseLock (by decide)) ?_
  rw [call_of_quiet (h .refreshSuccess (by decide))]
  rfl

/-- An execution leaves a lock file of this process only where it creates
one and does not release it. -/
theorem execute_foreign (hfile : LockFile.foreign file = true)
    (h : x.TakesLock file → x.ReleasesLock) :
    x.executeBackgroundConsolidation.Ensures file
      fun _ file => LockFile.foreign file = true := by
  unfold executeBackgroundConsolidation
  refine ensures_call_bind (fun _ => hfile) fun h₁ => ?_
  refine ensures_call_bind (fun _ => hfile) fun h₂ => ?_
  refine ensures_call_bind (fun _ => hfile) fun h₃ => ?_
  refine Method.ensures_read_bind ?_
  have hopening : x.Quiet opening := by
    intro c hc
    simp only [opening, List.mem_cons, List.not_mem_nil, or_false] at hc
    rcases hc with rfl | rfl | rfl
    · exact h₁
    · exact h₂
    · exact h₃
  cases hshould : x.shouldRunConsolidation file with
  | false =>
    rw [id, hshould]
    exact hfile
  | true =>
    rw [id, hshould, if_pos rfl]
    cases hcreate : x.raises .createLock with
    | true =>
      unfold acquireConsolidationLock
      rw [call_of_raises hcreate]
      exact hfile
    | false =>
      cases hfree : x.lockFree file with
      | false =>
        unfold Method.Ensures
        rw [Method.run_bind_of_ok
          (acquireConsolidationLock_blocked hcreate hfree)]
        cases hr : x.raises .refreshBlocked with
        | true =>
          rw [call_of_raises hr]
          exact hfile
        | false =>
          rw [call_of_quiet hr]
          exact hfile
      | true =>
        have hreleases := h ⟨hopening, hshould, hcreate, hfree⟩
        unfold Method.Ensures
        rw [Method.run_bind_of_ok (acquireConsolidationLock_free
          hcreate hfree (hreleases.1 .writeLock (by decide)))]
        have hnone := consolidateLocked_releases hreleases
        unfold Method.Ensures at hnone
        rw [if_pos rfl, hnone]
        rfl

theorem execute_returns (h : ¬ x.Fails file) :
    x.executeBackgroundConsolidation.Ensures file fun r _ => r = .ok () := by
  have hquiet : x.Quiet (x.calls file) := by
    intro c hc
    cases hr : x.raises c with
    | false => rfl
    | true => exact absurd ⟨c, hc, hr⟩ h
  unfold executeBackgroundConsolidation
  refine ensures_quiet_bind (hquiet .resolveContext (by simp [calls, opening])) ?_
  refine ensures_quiet_bind (hquiet .resolveMemoryConfig
    (by simp [calls, opening])) ?_
  refine ensures_quiet_bind (hquiet .refreshManifest
    (by simp [calls, opening])) ?_
  refine Method.ensures_read_bind ?_
  cases hshould : x.shouldRunConsolidation file with
  | false =>
    rw [id, hshould]
    rfl
  | true =>
    have hcalls : x.calls file = opening ++ .createLock ::
        if x.lockFree file then
          staging ++ .mergeProposals :: finishing ++ [.refreshSuccess]
        else [.refreshBlocked] := by
      unfold calls
      rw [if_pos hshould]
    rw [hcalls] at hquiet
    have hcreate := hquiet .createLock (by simp)
    rw [id, hshould, if_pos rfl]
    cases hfree : x.lockFree file with
    | false =>
      rw [hfree] at hquiet
      unfold Method.Ensures
      rw [Method.run_bind_of_ok
        (acquireConsolidationLock_blocked hcreate hfree)]
      rw [call_of_quiet (hquiet .refreshBlocked (by simp))]
      rfl
    | true =>
      rw [hfree] at hquiet
      unfold Method.Ensures
      rw [Method.run_bind_of_ok (acquireConsolidationLock_free hcreate
        hfree (hquiet .writeLock (by simp [staging])))]
      exact consolidateLocked_returns fun c hc =>
        hquiet c (List.mem_append_right _ (List.mem_cons_of_mem _ hc))

end Execution

-- ==== the extraction queue

/-- What the dictionaries hold under one key: a pending payload has a
runner, and a runner that has not run yet has a payload and a task id. -/
def ExtractionOk (pending : Option ExtractionPayload)
    (task : Option ExtractionRunner) (taskId : Option String) : Prop :=
  match task with
  | none => pending = none
  | some .scheduled => pending.isSome = true ∧ taskId.isSome = true
  | some (.sleeping _ _) => True
  | some .dead => False

namespace Extraction

def Attended (e : Extraction) : Prop :=
  ∀ key, ExtractionOk (e.pending.get? key) (e.tasks.get? key)
    (e.taskIds.get? key)

variable {e : Extraction} {key : String}

theorem Attended.unregister (h : e.Attended)
    (hpending : e.pending.get? key = none) : (e.unregister key).Attended := by
  intro k
  by_cases hk : k = key
  · subst hk
    simp only [Extraction.unregister, Dict.get?_erase_self]
    exact hpending
  · simp only [Extraction.unregister, Dict.get?_erase_of_ne _ hk]
    exact h k

theorem Attended.takePending (h : e.Attended) (jobService : Bool) :
    (e.takePending key jobService).Attended := by
  unfold Extraction.takePending
  cases hp : e.pending.get? key with
  | none => exact h.unregister hp
  | some payload =>
    intro k
    by_cases hk : k = key
    · subst hk
      simp only [Dict.get?_insert_self]
      trivial
    · simp only [Dict.get?_insert_of_ne _ _ hk, Dict.get?_erase_of_ne _ hk]
      exact h k

theorem extractionOk_of_registered {pending : Option ExtractionPayload}
    {task : Option ExtractionRunner} {taskId taskId' : Option String}
    (payload : ExtractionPayload) (h : ExtractionOk pending task taskId)
    (htask : task.isSome = true) (hid : taskId'.isSome = true) :
    ExtractionOk (some payload) task taskId' := by
  cases task with
  | none => exact absurd htask (by decide)
  | some r =>
    cases r with
    | scheduled => exact ⟨rfl, hid⟩
    | sleeping _ _ => trivial
    | dead => exact h

/-- A schedule keeps every payload attended, where its calls of the job
service return or a runner is there already. -/
theorem Attended.schedule (h : e.Attended) {payload : ExtractionPayload}
    {taskId : String} {jobRaises : Bool}
    (hjob : (payload.jobService && jobRaises) = true →
      e.tasks.contains key = true) :
    (e.schedule key payload taskId jobRaises).Attended := by
  intro k
  by_cases hk : k = key
  · subst hk
    have hid : ((if e.taskIds.contains k then e.taskIds
        else e.taskIds.insert k taskId).get? k).isSome = true := by
      cases hc : e.taskIds.contains k with
      | true => exact hc
      | false => simp
    cases hc : e.tasks.contains k with
    | true =>
      have hview := extractionOk_of_registered
        ((e.pending.get? k).elim payload fun existing =>
          mergeBackgroundPayload existing payload) (h k) hc hid
      unfold Extraction.schedule
      cases payload.jobService && jobRaises with
      | true => simpa using hview
      | false => simpa [hc] using hview
    | false =>
      have hjob' : (payload.jobService && jobRaises) = false := by
        cases hj : payload.jobService && jobRaises with
        | false => rfl
        | true => exact absurd ((hjob hj).symm.trans hc) (by decide)
      unfold Extraction.schedule
      simp only [hjob', hc, Bool.false_eq_true, if_false,
        Dict.get?_insert_self]
      exact ⟨rfl, hid⟩
  · have hids : (if e.taskIds.contains key then e.taskIds
        else e.taskIds.insert key taskId).get? k = e.taskIds.get? k := by
      split
      · rfl
      · exact Dict.get?_insert_of_ne _ _ hk
    have hpending := fun v => Dict.get?_insert_of_ne e.pending v hk
    have htasks := fun v => Dict.get?_insert_of_ne e.tasks v hk
    unfold Extraction.schedule
    dsimp only
    split
    · simpa only [hids, hpending] using h k
    · split
      · simpa only [hids, hpending] using h k
      · simpa only [hids, hpending, htasks] using h k

theorem Attended.begin (h : e.Attended) {jobRaises : Bool}
    (htask : e.tasks.get? key = some .scheduled)
    (hjob : ∀ payload, e.pending.get? key = some payload →
      (payload.jobService && jobRaises) = false) :
    (e.begin key jobRaises).Attended := by
  have hkey := h key
  rw [htask] at hkey
  obtain ⟨hpending, hid⟩ := hkey
  obtain ⟨payload, hp⟩ := Option.isSome_iff_exists.1 hpending
  obtain ⟨taskId, hid⟩ := Option.isSome_iff_exists.1 hid
  unfold Extraction.begin
  simp only [hp, hid, hjob payload hp, Bool.false_eq_true, if_false]
  exact h.takePending _

theorem Attended.resume (h : e.Attended) {jobService raises jobRaises : Bool}
    (hraises : e.pending.contains key = true →
      raises = false ∧ (jobService && jobRaises) = false) :
    (e.resume key jobService raises jobRaises).Attended := by
  unfold Extraction.resume
  cases hc : e.pending.contains key with
  | true =>
    obtain ⟨hr, hj⟩ := hraises hc
    rw [hr, Bool.and_true, hj]
    exact h.takePending _
  | false =>
    have hnone : e.pending.get? key = none :=
      Option.isNone_iff_eq_none.1 (by simpa [Dict.contains] using hc)
    cases raises with
    | true => exact h.unregister hnone
    | false =>
      rw [Bool.and_false, Bool.false_and]
      exact h.takePending _

end Extraction

-- ==== the consolidation queue

/-- The runner will look for a pending payload again. -/
def Consolidator.looksAgain : Consolidator → Bool
  | .submitted | .looking _ | .executing _ | .checking _ => true
  | .closing _ | .unregistering | .done => false

namespace Consolidation

/-- A pending payload has a runner that looks again, and no lock file is
one that a run of this process has left. -/
structure Attended (c : Consolidation) : Prop where
  runner : ∀ key payload, c.pending.get? key = some payload →
    ∃ r, c.tasks.get? key = some r ∧ r.looksAgain = true
  lockFile : ∀ key, LockFile.foreign (c.lockFiles.get? key) = true

variable {c : Consolidation} {key : String}

theorem Attended.place (h : c.Attended) {stage : Consolidator}
    (hstage : ∀ payload, c.pending.get? key = some payload →
      stage.looksAgain = true) : (c.place key stage).Attended := by
  refine ⟨fun k payload hp => ?_, h.lockFile⟩
  unfold Consolidation.place
  by_cases hk : k = key
  · subst hk
    exact ⟨stage, Dict.get?_insert_self _ _ _, hstage payload hp⟩
  · obtain ⟨r, hr, hlooks⟩ := h.runner k payload hp
    exact ⟨r, (Dict.get?_insert_of_ne _ _ hk).trans hr, hlooks⟩

theorem Attended.setLockFile (h : c.Attended) {file : Option LockFile}
    (hfile : LockFile.foreign file = true) :
    (c.setLockFile key file).Attended := by
  unfold Consolidation.setLockFile
  cases file with
  | none =>
    refine ⟨h.runner, fun k => ?_⟩
    dsimp only
    rw [Dict.get?_erase]
    split
    · rfl
    · exact h.lockFile k
  | some file =>
    refine ⟨h.runner, fun k => ?_⟩
    dsimp only
    rw [Dict.get?_insert]
    split
    · exact hfile
    · exact h.lockFile k

@[simp] theorem setLockFile_pending (file : Option LockFile) :
    (c.setLockFile key file).pending = c.pending := by
  cases file with
  | none => rfl
  | some file => rfl

theorem Attended.unregister (h : c.Attended)
    (hpending : c.pending.get? key = none) : (c.unregister key).Attended := by
  refine ⟨fun k payload hp => ?_, h.lockFile⟩
  have hk : k ≠ key := by
    intro heq
    rw [heq] at hp
    cases hpending.symm.trans hp
  obtain ⟨r, hr, hlooks⟩ := h.runner k payload hp
  exact ⟨r, (Dict.get?_erase_of_ne _ hk).trans hr, hlooks⟩

theorem Attended.none_pending (h : c.Attended) {r : Consolidator}
    (htask : c.tasks.get? key = some r) (hr : r.looksAgain = false) :
    c.pending.get? key = none := by
  cases hp : c.pending.get? key with
  | none => rfl
  | some payload =>
    obtain ⟨r', hr', hlooks⟩ := h.runner key payload hp
    cases htask.symm.trans hr'
    exact absurd (hr.symm.trans hlooks) (by decide)

theorem Attended.look (h : c.Attended) (jobService : Bool) :
    (c.look key jobService).Attended := by
  unfold Consolidation.look
  cases hp : c.pending.get? key with
  | none =>
    refine h.place fun payload hp' => ?_
    cases hp.symm.trans hp'
  | some payload =>
    refine ⟨fun k payload' hp' => ?_, h.lockFile⟩
    by_cases hk : k = key
    · subst hk
      exact ⟨_, Dict.get?_insert_self _ _ _, rfl⟩
    · unfold Consolidation.place at hp' ⊢
      dsimp only at hp' ⊢
      rw [Dict.get?_erase_of_ne _ hk] at hp'
      rw [Dict.get?_insert_of_ne _ _ hk]
      exact h.runner k payload' hp'

theorem clearDone_frame (c : Consolidation) (key : String) :
    (c.clearDone key).pending = c.pending
      ∧ (c.clearDone key).lockFiles = c.lockFiles
      ∧ ∀ k, k ≠ key → (c.clearDone key).tasks.get? k = c.tasks.get? k := by
  unfold clearDone
  split
  · exact ⟨rfl, rfl, fun k hk => Dict.get?_erase_of_ne _ hk⟩
  · exact ⟨rfl, rfl, fun _ _ => rfl⟩

theorem clearDone_of_existing {r : Consolidator}
    (h : c.existing key = some r) :
    c.tasks.get? key = some r ∧ c.clearDone key = c := by
  obtain ⟨htask, hr⟩ := Option.filter_eq_some_iff.1 h
  unfold clearDone
  refine ⟨htask, if_neg ?_⟩
  rw [htask]
  simpa using hr

variable {jobRaises jobService : Bool}

/-- The section of a scheduler keeps every payload attended, where the
registered runner looks again, or where there is none and one is
started. -/
theorem Attended.schedule (h : c.Attended) {taskId : String}
    {submitRaises : Bool}
    (hrunner : ∀ r, c.existing key = some r → r.looksAgain = true)
    (hstarts : c.existing key = none →
      (jobService && jobRaises) = false ∧ submitRaises = false) :
    (c.schedule key jobService taskId jobRaises submitRaises).Attended := by
  -- what the section leaves alone, and what it does to the runners
  have hframe : ∀ next : Consolidation,
      next.pending = c.pending.insert key jobService →
      next.lockFiles = c.lockFiles →
      (∀ k, k ≠ key → next.tasks.get? k = c.tasks.get? k) →
      (∃ r, next.tasks.get? key = some r ∧ r.looksAgain = true) →
      next.Attended := by
    intro next hpending hfiles hother hkey
    refine ⟨fun k payload hp => ?_, fun k => hfiles ▸ h.lockFile k⟩
    by_cases hk : k = key
    · exact hk ▸ hkey
    · rw [hpending, Dict.get?_insert_of_ne _ _ hk] at hp
      rw [hother k hk]
      exact h.runner k payload hp
  cases htask : c.existing key with
  | some r =>
    obtain ⟨hregistered, hclear⟩ := clearDone_of_existing htask
    unfold Consolidation.schedule
    simp only [hclear, htask, Option.isSome_some, if_true, ite_self]
    exact hframe _ rfl rfl (fun _ _ => rfl)
      ⟨r, hregistered, hrunner r htask⟩
  | none =>
    obtain ⟨hjob, hsubmit⟩ := hstarts htask
    obtain ⟨hpending, hfiles, hother⟩ := clearDone_frame c key
    unfold Consolidation.schedule
    simp only [hjob, hsubmit, htask, Bool.false_eq_true, if_false,
      Option.isSome_none]
    refine hframe _ (congrArg (·.insert key jobService) hpending) hfiles
      (fun k hk => ?_) ?_
    · exact (Dict.get?_insert_of_ne _ _ hk).trans (hother k hk)
    · exact ⟨_, Dict.get?_insert_self _ _ _, rfl⟩

theorem Attended.execute (h : c.Attended) {x : Execution}
    (hlock : x.TakesLock (c.lockFiles.get? key) → x.ReleasesLock)
    (hfails : x.Fails (c.lockFiles.get? key) → c.pending.get? key = none) :
    (c.execute key jobService x jobRaises).Attended := by
  have hforeign := Execution.execute_foreign (h.lockFile key) hlock
  have hreturns := @Execution.execute_returns x (c.lockFiles.get? key)
  unfold Method.Ensures at hforeign hreturns
  unfold Consolidation.execute
  cases hrun : x.executeBackgroundConsolidation.run
      (c.lockFiles.get? key) with
  | mk r file =>
    rw [hrun] at hforeign hreturns
    have hset : (c.setLockFile key file).Attended :=
      h.setLockFile hforeign
    cases r with
    | ok u =>
      exact hset.place fun _ _ => rfl
    | error e =>
      -- the runner leaves its loop
      have hnone : c.pending.get? key = none := by
        refine hfails (not_not.1 fun hquiet => ?_)
        cases hreturns hquiet
      have hgone : ∀ stage : Consolidator,
          ((c.setLockFile key file).place key stage).Attended := by
        intro stage
        refine hset.place fun payload hp => ?_
        rw [setLockFile_pending] at hp
        cases hnone.symm.trans hp
      dsimp only
      split
      · exact hgone _
      · exact hgone _

theorem Attended.check (h : c.Attended)
    (hjob : c.pending.contains key = true →
      (jobService && jobRaises) = false) :
    (c.check key jobService jobRaises).Attended := by
  unfold Consolidation.check
  split
  · next hraises =>
      simp only [Bool.and_eq_true] at hraises
      obtain ⟨⟨hservice, hpending⟩, hraises⟩ := hraises
      have hquiet := hjob hpending
      rw [hservice, hraises] at hquiet
      exact absurd hquiet (by decide)
  · exact h.place fun _ _ => rfl

theorem Attended.begin (h : c.Attended)
    (hjob : ((c.pending.get? key).getD false && jobRaises) = false) :
    (c.begin key jobRaises).Attended := by
  unfold Consolidation.begin
  simp only [hjob, Bool.false_eq_true, if_false]
  exact h.place fun _ _ => rfl

theorem Attended.close (h : c.Attended) {r : Consolidator}
    (htask : c.tasks.get? key = some r) (hr : r.looksAgain = false) :
    (c.close key jobService jobRaises).Attended := by
  have hnone := h.none_pending htask hr
  have hplace : ∀ stage, (c.place key stage).Attended := by
    intro stage
    refine h.place fun payload hp => ?_
    cases hnone.symm.trans hp
  unfold Consolidation.close
  split
  · exact hplace _
  · exact hplace _

end Consolidation

-- ============ the runs

/-- No runner is alive. -/
def Background.Quiescent (s : Background) : Prop :=
  (∀ key r, s.extraction.tasks.get? key = some r → r = .dead)
    ∧ ∀ key r, s.consolidation.tasks.get? key = some r → r = .done

/-- Nothing is stuck: no payload is pending, no run of this process has
left its lock file, and the next schedule starts a runner. -/
structure Background.Unstuck (s : Background) : Prop where
  extraction : ∀ key, s.extraction.pending.get? key = none
  consolidation : ∀ key, s.consolidation.pending.get? key = none
  lockFile : ∀ key,
    LockFile.foreign (s.consolidation.lockFiles.get? key) = true
  extractionStarts : ∀ key payload taskId,
    (s.extraction.schedule key payload taskId false).tasks.get? key
      = some .scheduled
  consolidationStarts : ∀ key jobService taskId,
    (s.consolidation.schedule key jobService taskId false false).tasks.get? key
      = some .submitted

/-- The steps that strand no payload and leave no lock file. -/
def Orderly (s : Background) : BackgroundAction → Prop
  | .scheduleExtraction key payload _ jobRaises =>
    -- without a runner, the job service has to return
    (payload.jobService && jobRaises) = true →
      s.extraction.tasks.contains key = true
  | .runExtraction key raises jobRaises =>
    match s.extraction.tasks.get? key with
    | some .scheduled => ∀ payload,
        s.extraction.pending.get? key = some payload →
          (payload.jobService && jobRaises) = false
    | some (.sleeping _ jobService) =>
      s.extraction.pending.contains key = true →
        raises = false ∧ (jobService && jobRaises) = false
    | some .dead => True
    | none => True
  | .scheduleConsolidation key jobService _ jobRaises submitRaises =>
    (∀ r, s.consolidation.existing key = some r → r.looksAgain = true)
      ∧ (s.consolidation.existing key = none →
        (jobService && jobRaises) = false ∧ submitRaises = false)
  | .runConsolidation key x jobRaises =>
    match s.consolidation.tasks.get? key with
    | some .submitted =>
      ((s.consolidation.pending.get? key).getD false && jobRaises) = false
    | some (.executing _) =>
      (x.TakesLock (s.consolidation.lockFiles.get? key) → x.ReleasesLock)
        ∧ (x.Fails (s.consolidation.lockFiles.get? key) →
          s.consolidation.pending.get? key = none)
    | some (.checking jobService) =>
      s.consolidation.pending.contains key = true →
        (jobService && jobRaises) = false
    | some (.looking _) => True
    | some (.closing _) => True
    | some .unregistering => True
    | some .done => True
    | none => True
  | .otherProcess _ _ => True

def Background.Attended (s : Background) : Prop :=
  s.extraction.Attended ∧ s.consolidation.Attended

variable {c : Consolidation}

theorem runExtraction_attended {e e' : Extraction} {key : String}
    {raises jobRaises : Bool} (h : e.Attended)
    (hstep : runExtraction e key raises jobRaises = some e')
    (horderly : Orderly ⟨e, c⟩ (.runExtraction key raises jobRaises)) :
    e'.Attended := by
  unfold runExtraction at hstep
  unfold Orderly at horderly
  cases htask : e.tasks.get? key with
  | none =>
    rw [htask] at hstep
    cases hstep
  | some r =>
    simp only [htask] at hstep horderly
    cases r with
    | scheduled =>
      cases hstep
      exact h.begin htask horderly
    | sleeping payload jobService =>
      cases hstep
      exact h.resume horderly
    | dead => cases hstep

theorem runConsolidation_attended {c' : Consolidation} {key : String}
    {x : Execution} {jobRaises : Bool} {e : Extraction} (h : c.Attended)
    (hstep : runConsolidation c key x jobRaises = some c')
    (horderly : Orderly ⟨e, c⟩ (.runConsolidation key x jobRaises)) :
    c'.Attended := by
  unfold runConsolidation at hstep
  unfold Orderly at horderly
  cases htask : c.tasks.get? key with
  | none =>
    rw [htask] at hstep
    cases hstep
  | some r =>
    simp only [htask] at hstep horderly
    cases r with
    | submitted =>
      cases hstep
      exact h.begin horderly
    | looking jobService =>
      cases hstep
      exact h.look jobService
    | executing jobService =>
      cases hstep
      exact h.execute horderly.1 horderly.2
    | checking jobService =>
      cases hstep
      exact h.check horderly
    | closing jobService =>
      cases hstep
      exact h.close htask rfl
    | unregistering =>
      cases hstep
      exact h.unregister (h.none_pending htask rfl)
    | done => cases hstep

theorem otherProcess_attended {c' : Consolidation} {key : String}
    {written : Option Bool} (h : c.Attended)
    (hstep : otherProcess c key written = some c') : c'.Attended := by
  unfold otherProcess at hstep
  split at hstep
  · cases hstep
    refine h.setLockFile ?_
    cases written with
    | none => rfl
    | some w => rfl
  · cases hstep

theorem attended_step {s s' : Background} {a : BackgroundAction}
    (h : s.Attended) (hstep : backgroundSystem.step s a = some s')
    (horderly : Orderly s a) : s'.Attended := by
  obtain ⟨he, hc⟩ := h
  cases a with
  | scheduleExtraction key payload taskId jobRaises =>
    cases hstep
    exact ⟨he.schedule horderly, hc⟩
  | runExtraction key raises jobRaises =>
    obtain ⟨e', he', rfl⟩ := Option.map_eq_some_iff.1 hstep
    exact ⟨runExtraction_attended he he' horderly, hc⟩
  | scheduleConsolidation key jobService taskId jobRaises submitRaises =>
    cases hstep
    exact ⟨he, hc.schedule horderly.1 horderly.2⟩
  | runConsolidation key x jobRaises =>
    obtain ⟨c', hc', rfl⟩ := Option.map_eq_some_iff.1 hstep
    exact ⟨he, runConsolidation_attended hc hc' horderly⟩
  | otherProcess key written =>
    obtain ⟨c', hc', rfl⟩ := Option.map_eq_some_iff.1 hstep
    exact ⟨he, otherProcess_attended hc hc'⟩

theorem attended_empty {lockFiles : Dict String LockFile}
    (hfiles : ∀ key, LockFile.foreign (lockFiles.get? key) = true) :
    (Background.empty lockFiles).Attended := by
  refine ⟨fun key => rfl, fun key payload hp => ?_, hfiles⟩
  cases hp

/-- Where every payload has a runner that looks for it and no runner is
alive, there is none. -/
theorem unstuck_of_attended {s : Background} (h : s.Attended)
    (hquiescent : s.Quiescent) : s.Unstuck := by
  obtain ⟨he, hc⟩ := h
  have htasks : ∀ key, s.extraction.tasks.get? key = none := by
    intro key
    cases htask : s.extraction.tasks.get? key with
    | none => rfl
    | some r =>
      have hok := he key
      rw [htask, hquiescent.1 key r htask] at hok
      exact hok.elim
  have hexisting : ∀ key, s.consolidation.existing key = none := by
    intro key
    cases htask : s.consolidation.existing key with
    | none => rfl
    | some r =>
      obtain ⟨hregistered, hr⟩ := Option.filter_eq_some_iff.1 htask
      rw [hquiescent.2 key r hregistered] at hr
      exact absurd hr (by decide)
  refine ⟨fun key => ?_, fun key => ?_, hc.lockFile,
    fun key payload taskId => ?_, fun key jobService taskId => ?_⟩
  · have hok := he key
    rw [htasks key] at hok
    exact hok
  · cases hp : s.consolidation.pending.get? key with
    | none => rfl
    | some payload =>
      obtain ⟨r, hr, hlooks⟩ := hc.runner key payload hp
      rw [hquiescent.2 key r hr] at hlooks
      exact absurd hlooks (by decide)
  · unfold Extraction.schedule
    have hnone : s.extraction.tasks.contains key = false := by
      simp only [Dict.contains, htasks key, Option.isSome_none]
    simp only [Bool.and_false, hnone, Bool.false_eq_true, if_false,
      Dict.get?_insert_self]
  · unfold Consolidation.schedule
    simp only [Bool.and_false, hexisting key, Option.isSome_none,
      Bool.false_eq_true, if_false, Dict.get?_insert_self]

/-- In every run of the queues whose steps are all orderly, a state in
which no runner is alive has nothing stuck. -/
theorem backgroundWork_unstuck (lockFiles : Dict String LockFile)
    (hfiles : ∀ key, LockFile.foreign (lockFiles.get? key) = true)
    (as : List BackgroundAction)
    (horderly : ∀ s a s',
      backgroundSystem.Takes (.empty lockFiles) as s a s' → Orderly s a)
    {s : Background} (hs : backgroundSystem.Visits (.empty lockFiles) as s)
    (hquiescent : s.Quiescent) : s.Unstuck := by
  have hattended : s.Attended :=
    System.invariant_of_takes (I := Background.Attended)
      (fun _ _ _ h hstep ho => attended_step h hstep ho)
      (attended_empty hfiles) horderly hs
  exact unstuck_of_attended hattended hquiescent

-- ==== runs of the queues

def sampleExecution (raising : List Call) : Execution where
  raises c := raising.any fun c' => c' = c
  runId := "cons-1"
  due := true
  stale := false

/-- The consolidation runner goes on; nothing raises. -/
def consolidateSample : BackgroundAction :=
  .runConsolidation "root" (sampleExecution []) false

/-- Both queues run one payload. -/
def runBoth : List BackgroundAction :=
  [.scheduleConsolidation "root" true "j1" false false,
    .scheduleExtraction "key" ⟨["m1"], true⟩ "j2" false,
    consolidateSample, consolidateSample, consolidateSample,
    consolidateSample, .runExtraction "key" false false, consolidateSample,
    consolidateSample, consolidateSample, .runExtraction "key" false false]

/-- A payload is scheduled when the runner has found nothing pending. -/
def scheduleLate : List BackgroundAction :=
  [.scheduleConsolidation "root" true "j1" false false,
    consolidateSample, consolidateSample, consolidateSample,
    consolidateSample, consolidateSample,
    .scheduleConsolidation "root" true "j2" false false,
    consolidateSample, consolidateSample]

def raiseLocked : List BackgroundAction :=
  [.scheduleConsolidation "root" true "j1" false false,
    consolidateSample, consolidateSample,
    .runConsolidation "root" (sampleExecution [.buildProposals]) false,
    consolidateSample, consolidateSample]

/-- What is looked at in the end: the registered runners, the pending
consolidation and the lock file. -/
def Background.outlook (s : Background) :
    Nat × Nat × Option Bool × Option LockFile :=
  (s.extraction.tasks.entries.length, s.consolidation.tasks.entries.length,
    s.consolidation.pending.get? "root", s.consolidation.lockFiles.get? "root")

theorem quiescent_of_outlook {s : Background} {pending : Option Bool}
    {file : Option LockFile} (h : s.outlook = (0, 0, pending, file)) :
    s.Quiescent ∧ s.consolidation.pending.get? "root" = pending
      ∧ s.consolidation.lockFiles.get? "root" = file := by
  simp only [Background.outlook, Prod.mk.injEq, List.length_eq_zero_iff] at h
  obtain ⟨hextraction, hconsolidation, hpending, hfile⟩ := h
  refine ⟨⟨fun key r hr => ?_, fun key r hr => ?_⟩, hpending, hfile⟩
  · have hmem := Dict.get?_eq_some_iff.1 hr
    rw [hextraction] at hmem
    cases hmem
  · have hmem := Dict.get?_eq_some_iff.1 hr
    rw [hconsolidation] at hmem
    cases hmem

theorem outlook_runBoth :
    (backgroundSystem.run (.empty .empty) runBoth).map Background.outlook
      = some (0, 0, none, none) := by
  decide

theorem outlook_scheduleLate :
    (backgroundSystem.run (.empty .empty) scheduleLate).map
      Background.outlook = some (0, 0, some true, none) := by
  decide

theorem outlook_raiseLocked :
    (backgroundSystem.run (.empty .empty) raiseLocked).map
      Background.outlook
      = some (0, 0, none, some ⟨some "cons-1", true⟩) := by
  decide

theorem orderly_consolidateSample (s : Background) :
    Orderly s consolidateSample := by
  unfold Orderly consolidateSample
  dsimp only
  split
  · exact Bool.and_false _
  · refine ⟨fun _ => ?_, fun hfails => ?_⟩
    · exact ⟨fun _ _ => rfl, fun _ _ => rfl⟩
    · obtain ⟨c, -, hc⟩ := hfails
      cases hc
  · exact fun _ => Bool.and_false _
  all_goals trivial

theorem orderly_runExtraction_quiet (s : Background) (key : String) :
    Orderly s (.runExtraction key false false) := by
  unfold Orderly
  dsimp only
  split
  · exact fun _ _ => Bool.and_false _
  · exact fun _ => ⟨rfl, Bool.and_false _⟩
  · trivial
  · trivial

theorem backgroundWork_runBoth :
    ∃ s, backgroundSystem.run (.empty .empty) runBoth = some s
      ∧ s.Unstuck := by
  obtain ⟨s, hs, hlook⟩ := Option.map_eq_some_iff.1 outlook_runBoth
  refine ⟨s, hs, backgroundWork_unstuck .empty (fun _ => rfl) runBoth ?_
    (System.Visits.finish hs) (quiescent_of_outlook hlook).1⟩
  intro u a u' htake
  obtain ⟨p, q, heq, hp, -⟩ := htake
  cases p with
  | nil =>
    cases heq
    cases hp
    exact ⟨fun r hr => (by cases hr), fun _ => ⟨rfl, rfl⟩⟩
  | cons b p =>
    -- from the second action on, no call raises
    have htail : runBoth.tail = p ++ a :: q := congrArg List.tail heq
    have hmem : a ∈ runBoth.tail :=
      htail ▸ List.mem_append_right p (List.mem_cons_self ..)
    simp only [runBoth, List.tail_cons, List.mem_cons, List.not_mem_nil,
      or_false] at hmem
    have hkind : a = .scheduleExtraction "key" ⟨["m1"], true⟩ "j2" false
        ∨ a = consolidateSample ∨ a = .runExtraction "key" false false := by
      tauto
    rcases hkind with rfl | rfl | rfl
    · exact fun h => (by cases h)
    · exact orderly_consolidateSample u
    · exact orderly_runExtraction_quiet u "key"

/-- A payload scheduled between the last look of a runner and its end
stays pending, and a call that raises under the lock leaves its file. -/
theorem backgroundWork_stuck :
    (∃ s, backgroundSystem.run (.empty .empty) scheduleLate = some s
        ∧ s.Quiescent ∧ s.consolidation.pending.get? "root" = some true)
      ∧ ∃ s, backgroundSystem.run (.empty .empty) raiseLocked = some s
        ∧ s.Quiescent ∧ s.consolidation.lockFiles.get? "root"
          = some ⟨some "cons-1", true⟩ := by
  obtain ⟨s, hs, hlook⟩ := Option.map_eq_some_iff.1 outlook_scheduleLate
  obtain ⟨hquiescent, hpending, -⟩ := quiescent_of_outlook hlook
  obtain ⟨t, ht, hlook'⟩ := Option.map_eq_some_iff.1 outlook_raiseLocked
  obtain ⟨hquiescent', -, hfile⟩ := quiescent_of_outlook hlook'
  exact ⟨⟨s, hs, hquiescent, hpending⟩, ⟨t, ht, hquiescent', hfile⟩⟩

end WeaveRuntime.Memory
