/-
The sessions that helpers of the bound host own: `_run_prompt_impl`,
`_run_prompt_report_impl` and `_stream_prompt_impl` create one, run a
prompt in it and close it.

`Turn` is what the environment chooses: the events, with the status of the
session at each, what the stream raises after them, and what the awaits of
closing and of the finalization raise. What comes before the first event
(preparing the session) is part of the stream.
-/
import WeaveRuntime.TurnEngine.Views

namespace WeaveRuntime.Hosts

open Lib Python TurnEngine TurnEngine.TurnTerminal
open Jobs (getField)

-- ==== model: the status to close with

inductive SessionStatus where
  | idle | starting | ready | running | waiting | interrupted | completed
  | failed | stopped
deriving DecidableEq

/-- `_managed_session_close_status` without a terminal. -/
def statusOr (status : SessionStatus) (default : String) : String :=
  match status with
  | .interrupted => "interrupted"
  | .failed => "failed"
  | .stopped => "stopped"
  | _ => default

/-- What `_managed_session_close_status` returns for the terminal, before
it looks at the session. -/
def terminalStatus (t : TurnTerminal) : Except Raised (Option String) :=
  if given t.error then .ok (some "failed")
  else if given t.abortReason then .ok (some "interrupted")
  else if t.postEffects.sessionStatusHint = "waiting" then
    .ok (some "stopped")
  else if t.postEffects.sessionStatusHint = "interrupted" then
    .ok (some "interrupted")
  else do
    if ← namesFailure (getField t.metadata "failure_class") then
      return some "failed"
    if (getField t.metadata "continuation_blocked").truthy then
      return some "stopped"
    if t.stopReason = "interrupted" then return some "interrupted"
    if t.stopReason = "blocked" then return some "stopped"
    return none

/-- `_managed_session_close_status`; `_helper_session_close_status` does
the same. -/
def closeStatus (terminal : Option TurnTerminal) (status : SessionStatus)
    (default : String) : Except Raised String :=
  match terminal with
  | none => .ok (statusOr status default)
  | some t => do return (← terminalStatus t).getD (statusOr status default)

-- ==== model: sessions and turns

/-- What an await raises: cancellation and the early close of a generator
are no `Exception`. -/
inductive Raise where
  | exception | cancelled | generatorExit
deriving DecidableEq

structure Event where
  terminal : Option TurnTerminal
  status : SessionStatus

structure Turn where
  events : List Event
  raises : Option Raise
  status : SessionStatus
  closing : Option Raise
  finalization : Option Raise

/-- `closedSessions` has the final status of each entry that
`_on_managed_session_close` adds for the session. -/
structure Session where
  status : SessionStatus
  closed : Bool := false
  managed : Bool := true
  closedSessions : List String := []

namespace Session

/-- `SessionController.close`: the callback is called whatever the awaits
before it raise. -/
def close (s : Session) (finalStatus : String) (raises : Option Raise) :
    Session × Option Raise :=
  if s.closed then (s, none)
  else
    ({ s with
        closed := true, managed := false
        closedSessions := s.closedSessions ++ [finalStatus] }, raises)

/-- `_close_active_helper_owned_session`. -/
def closeActive (s : Session) (defaultStatus : String) (interrupts : Bool)
    (raises : Option Raise) : Session :=
  if s.managed then
    let s := if interrupts ∧ s.status = .running then
      { s with status := .interrupted } else s
    (s.close (statusOr s.status defaultStatus) raises).1
  else s

end Session

structure Collector where
  terminal : Option TurnTerminal := none
  finalStatus : String := "completed"

/-- What a loop over the events does with one; an error is the status of
the session where `_managed_session_close_status` raised. -/
def note (default : Collector → String) (c : Collector) (e : Event) :
    Except SessionStatus Collector :=
  match e.terminal with
  | none => .ok c
  | some t =>
    match closeStatus (some t) e.status (default c) with
    | .ok finalStatus => .ok { terminal := some t, finalStatus := finalStatus }
    | .error _ => .error e.status

/-- `_workflow_run_collect_event` of each event. -/
def collect (t : Turn) : Except SessionStatus Collector :=
  t.events.foldlM (note Collector.finalStatus) {}

-- ==== model: the helpers

/-- `WorkflowRunReportStream.report`. -/
def report (t : Turn) (helperOwned waits : Bool) :
    Session × Option Raise :=
  match collect t with
  -- `_record_failure_locked` asks for the status again, and raises too
  | .error status => ({ status := status }, some .exception)
  | .ok c =>
    let s : Session := { status := t.status }
    match t.raises with
    | none =>
      match closeStatus c.terminal t.status c.finalStatus, helperOwned with
      | .error _, _ => (s, some .exception)
      | .ok _, false => (s, none)
      | .ok finalStatus, true =>
        match s.close finalStatus t.closing with
        | (s, none) => (s, if waits then t.finalization else none)
        | raised => raised
    | some .exception =>
      match closeStatus c.terminal t.status "failed", helperOwned with
      | .ok finalStatus, true =>
        match s.close finalStatus t.closing with
        | (s, none) | (s, some .exception) => (s, some .exception)
        | raised => raised
      | _, _ => (s, some .exception)
    | raised => (s, raised)

/-- `_run_prompt_impl`. -/
def runPrompt (t : Turn) : Session :=
  let (s, raised) := report t false false
  let finalStatus := if raised = some .exception then
    statusOr s.status "failed" else "completed"
  (s.close finalStatus t.closing).1

/-- `_run_prompt_report_impl`. -/
def runPromptReport (t : Turn) (waits : Bool) : Session :=
  match report t true waits with
  | (s, some .cancelled) => s.closeActive "interrupted" true t.closing
  | (s, some .exception) => s.closeActive "failed" false t.closing
  | (s, _) => s

/-- `_stream_prompt_impl`. -/
def streamPrompt (t : Turn) : Session :=
  match t.events.foldlM (note fun _ => "completed") {} with
  | .error status =>
    let s : Session := { status := status }
    (s.close (statusOr status "failed") t.closing).1
  | .ok c =>
    let s : Session := { status := t.status }
    let finalStatus := if t.raises = some .exception then
      statusOr s.status "failed" else c.finalStatus
    (s.close finalStatus t.closing).1

-- ==== closing once, and truthfully

/-- The sessions of the helpers that a turn can end so for: only a
generator is closed early. -/
def sessions (t : Turn) (waits : Bool) : List Session :=
  if t.raises = some .generatorExit then [streamPrompt t]
  else [runPrompt t, runPromptReport t waits, streamPrompt t]

/-- The terminal of the event is mapped to completed. -/
def Event.Completes (e : Event) : Prop :=
  ∃ term, e.terminal = some term
    ∧ closeStatus (some term) e.status "completed" = .ok "completed"

/-- Closed and deregistered, once. -/
def Session.ClosedWith (s : Session) (finalStatus : String) : Prop :=
  s.managed = false ∧ s.closedSessions = [finalStatus]

/-- Each session is closed once, all with one status, which is completed
only if a terminal was reached that says so. -/
def ClosesTruthfully (t : Turn) (waits : Bool) : Prop :=
  ∃ finalStatus, (∀ s ∈ sessions t waits, s.ClosedWith finalStatus)
    ∧ (finalStatus = "completed" → ∃ e ∈ t.events, e.Completes)

/-- `_managed_session_close_status` raises for the event. -/
def Event.Raises (e : Event) : Prop :=
  ∃ term, e.terminal = some term ∧ terminalStatus term = .error .typeError

def Turn.lastTerminal (t : Turn) : Option TurnTerminal :=
  (t.events.filterMap Event.terminal).getLast?

/-- What the end of a turn must be like, by what the stream raises. -/
def Turn.Unambiguous (t : Turn) : Prop :=
  match t.raises with
  | none =>
    t.lastTerminal.isSome
      ∧ (∀ e ∈ t.events, e.terminal.isSome → e.Completes)
      ∧ statusOr t.status "completed" = "completed"
  | some .exception =>
    closeStatus t.lastTerminal t.status "failed"
      = .ok (statusOr t.status "failed")
  | some .cancelled => False
  | some .generatorExit => t.lastTerminal.isSome

theorem statusOr_failed (status : SessionStatus) :
    statusOr status "failed" ≠ "completed" := by
  cases status <;> decide

theorem statusOr_completed {status : SessionStatus} {default : String} :
    statusOr status default = "completed"
      ↔ default = "completed" ∧ statusOr status "completed" = "completed" := by
  cases status <;> simp [statusOr]

theorem terminalStatus_ne (t : TurnTerminal) :
    terminalStatus t ≠ .ok (some "completed") := by
  unfold terminalStatus
  iterate 4
    split
    · simp
  intro h
  obtain ⟨named, -, h⟩ := bind_eq_ok.1 h
  cases named <;> repeat' split at h
  all_goals simp [pure, Except.pure] at h

theorem closeStatus_some (term : TurnTerminal) (status : SessionStatus)
    (default : String) :
    closeStatus (some term) status default
      = (terminalStatus term).map (Option.getD · (statusOr status default)) := by
  cases h : terminalStatus term <;> simp [closeStatus, h] <;> rfl

theorem closeStatus_completed {term : TurnTerminal}
    {status : SessionStatus} {default : String} :
    closeStatus (some term) status default = .ok "completed"
      ↔ terminalStatus term = .ok none
        ∧ statusOr status default = "completed" := by
  have hne := terminalStatus_ne term
  rw [closeStatus_some]
  cases hterm : terminalStatus term with
  | error => simp [Except.map]
  | ok said =>
    rw [hterm] at hne
    cases said <;> simp_all [Except.map]

theorem note_eq_ok {default : Collector → String} {c c' : Collector}
    {e : Event} (h : note default c e = .ok c') :
    (e.terminal = none ∧ c' = c)
      ∨ ∃ term, e.terminal = some term ∧ c'.terminal = some term
        ∧ closeStatus (some term) e.status (default c)
          = .ok c'.finalStatus := by
  unfold note at h
  cases hterm : e.terminal with
  | none => exact .inl ⟨rfl, by simpa [hterm] using h.symm⟩
  | some term =>
    simp only [hterm] at h
    split at h
    next hs => cases h; exact .inr ⟨term, rfl, rfl, hs⟩
    · cases h

theorem note_eq_error {default : Collector → String} {c : Collector}
    {e : Event} {status : SessionStatus} :
    note default c e = .error status ↔ e.Raises ∧ status = e.status := by
  unfold note Event.Raises
  cases e.terminal with
  | none => simp
  | some term =>
    cases hs : terminalStatus term with
    | error raised =>
      cases raised
      simp [closeStatus_some, hs, Except.map, eq_comm]
    | ok said => simp [closeStatus_some, hs, Except.map]

theorem note_ok_iff {default : Collector → String} (c : Collector)
    (e : Event) : (∃ c', note default c e = .ok c') ↔ ¬ e.Raises := by
  cases h : note default c e with
  | error status => simp [(note_eq_error.1 h).1]
  | ok c' =>
    refine iff_of_true ⟨c', rfl⟩ fun hr => ?_
    have herr : note default c e = _ := note_eq_error.2 ⟨hr, rfl⟩
    rw [h] at herr
    cases herr

theorem notes_error {d d' : Collector → String} {es : List Event}
    {c c' : Collector} {status : SessionStatus}
    (h : es.foldlM (note d) c = .error status) :
    es.foldlM (note d') c' = .error status := by
  induction es generalizing c c' with
  | nil => cases h
  | cons e es ih =>
    rw [List.foldlM_cons] at h ⊢
    refine bind_eq_error.2 ?_
    rcases bind_eq_error.1 h with h | ⟨next, hnext, h⟩
    · exact .inl (note_eq_error.2 (note_eq_error.1 h))
    · obtain ⟨next', hnext'⟩ := (note_ok_iff c' e).2
        ((note_ok_iff c e).1 ⟨next, hnext⟩)
      exact .inr ⟨next', hnext', ih h⟩

theorem notes_terminal {d : Collector → String} {es : List Event}
    {c c' : Collector} (h : es.foldlM (note d) c = .ok c') :
    c'.terminal = ((es.filterMap Event.terminal).getLast?).or c.terminal := by
  induction es generalizing c with
  | nil => cases h; rfl
  | cons e es ih =>
    rw [List.foldlM_cons] at h
    obtain ⟨next, hnext, h⟩ := bind_eq_ok.1 h
    rw [ih h]
    rcases note_eq_ok hnext with ⟨hterm, rfl⟩ | ⟨term, hterm, hn, -⟩
    · rw [List.filterMap_cons_none hterm]
    · rw [List.filterMap_cons_some hterm, List.getLast?_cons, hn]
      cases (es.filterMap Event.terminal).getLast? <;> rfl

theorem collect_completed_iff {es : List Event} {c c' : Collector}
    (h : es.foldlM (note Collector.finalStatus) c = .ok c') :
    c'.finalStatus = "completed" ↔ c.finalStatus = "completed"
      ∧ ∀ e ∈ es, e.terminal.isSome → e.Completes := by
  induction es generalizing c with
  | nil => cases h; simp
  | cons e es ih =>
    rw [List.foldlM_cons] at h
    obtain ⟨next, hnext, h⟩ := bind_eq_ok.1 h
    rw [ih h, List.forall_mem_cons]
    rcases note_eq_ok hnext with ⟨hterm, rfl⟩ | ⟨term, hterm, -, hn⟩
    · simp [hterm]
    · have hiff : next.finalStatus = "completed"
          ↔ c.finalStatus = "completed" ∧ e.Completes := by
        have hok : (.ok next.finalStatus : Except Raised String)
            = .ok "completed" ↔ _ := hn ▸ closeStatus_completed
        rw [Except.ok.injEq, statusOr_completed] at hok
        rw [hok]
        simp [Event.Completes, hterm, closeStatus_completed]
        tauto
      simp [hiff, hterm, and_assoc]

theorem stream_last {es : List Event} {c c' : Collector}
    (h : es.foldlM (note fun _ => "completed") c = .ok c') :
    (es.filterMap Event.terminal = [] ∧ c'.finalStatus = c.finalStatus)
      ∨ ∃ e ∈ es, e.terminal.isSome
        ∧ (c'.finalStatus = "completed" ↔ e.Completes) := by
  induction es generalizing c with
  | nil => cases h; exact .inl ⟨rfl, rfl⟩
  | cons e es ih =>
    rw [List.foldlM_cons] at h
    obtain ⟨next, hnext, h⟩ := bind_eq_ok.1 h
    rcases ih h with ⟨hnone, hlast⟩ | ⟨x, hx, hlast⟩
    · rcases note_eq_ok hnext with ⟨hterm, rfl⟩ | ⟨term, hterm, -, hn⟩
      · exact .inl ⟨by rw [List.filterMap_cons_none hterm, hnone], hlast⟩
      · refine .inr ⟨e, List.mem_cons_self, by simp [hterm], ?_⟩
        rw [hlast]
        simp [Event.Completes, hterm, hn]
    · exact .inr ⟨x, List.mem_cons_of_mem _ hx, hlast⟩

section Closed

variable {t : Turn} (waits : Bool)

theorem closed_raised (h : ∃ e ∈ t.events, e.Raises) :
    ∃ status, ∀ s ∈ sessions t waits,
      s.ClosedWith (statusOr status "failed") := by
  cases hc : collect t with
  | ok c =>
    obtain ⟨e, he, hr⟩ := h
    exact absurd hr ((exists_foldlM_iff note_ok_iff _).1 ⟨c, hc⟩ e he)
  | error status =>
    have hs : t.events.foldlM (note fun _ => "completed") {} = _ :=
      notes_error hc
    refine ⟨status, fun s hmem => ?_⟩
    suffices s = runPrompt t ∨ s = runPromptReport t waits
        ∨ s = streamPrompt t by
      rcases this with rfl | rfl | rfl
      · simp [runPrompt, report, hc, Session.close, Session.ClosedWith]
      · simp [runPromptReport, report, hc, Session.closeActive,
          Session.close, Session.ClosedWith]
      · simp [streamPrompt, hs, Session.close, Session.ClosedWith]
    unfold sessions at hmem
    split at hmem <;> simp_all

section Unraised

variable (h : ∀ e ∈ t.events, ¬ e.Raises)
include h

theorem collected : ∃ c, collect t = .ok c ∧ c.terminal = t.lastTerminal := by
  obtain ⟨c, hc⟩ := (exists_foldlM_iff note_ok_iff {}).2 h
  exact ⟨c, hc, by simpa [Turn.lastTerminal] using notes_terminal hc⟩

theorem exists_closeStatus (status : SessionStatus) (default : String) :
    ∃ text, closeStatus t.lastTerminal status default = .ok text := by
  cases hlast : t.lastTerminal with
  | none => exact ⟨_, rfl⟩
  | some term =>
    obtain ⟨e, he, hterm⟩ := List.mem_filterMap.1
      (List.mem_of_getLast? hlast)
    cases hs : terminalStatus term with
    | error raised => exact absurd ⟨term, hterm, hs⟩ (h e he)
    | ok said => simp [closeStatus_some, hs, Except.map]

theorem runPrompt_closed :
    (runPrompt t).ClosedWith (if t.raises = some .exception then
      statusOr t.status "failed" else "completed") := by
  obtain ⟨c, hc, hterm⟩ := collected h
  obtain ⟨text, htext⟩ := exists_closeStatus h t.status c.finalStatus
  rw [← hterm] at htext
  unfold runPrompt report
  rw [hc]
  rcases hr : t.raises with _ | _ | _ | _ <;>
    simp [htext, Session.close, Session.ClosedWith]

theorem report_closed (hexit : t.raises ≠ some .generatorExit) :
    ∃ c, collect t = .ok c ∧ ∃ text,
      (runPromptReport t waits).ClosedWith text
        ∧ match t.raises with
          | none => closeStatus t.lastTerminal t.status c.finalStatus
            = .ok text
          | some .exception => closeStatus t.lastTerminal t.status "failed"
            = .ok text
          | _ => text ≠ "completed" := by
  obtain ⟨c, hc, hterm⟩ := collected h
  refine ⟨c, hc, ?_⟩
  unfold runPromptReport report
  rw [hc, ← hterm]
  rcases hr : t.raises with _ | _ | _ | _
  · obtain ⟨text, htext⟩ := exists_closeStatus h t.status c.finalStatus
    rw [← hterm] at htext
    refine ⟨text, ?_, htext⟩
    rcases t.closing with _ | _ | _ | _ <;> cases waits <;>
      rcases t.finalization with _ | _ | _ | _ <;>
      simp [htext, Session.close, Session.closeActive, Session.ClosedWith]
  · obtain ⟨text, htext⟩ := exists_closeStatus h t.status "failed"
    rw [← hterm] at htext
    refine ⟨text, ?_, htext⟩
    rcases t.closing with _ | _ | _ | _ <;>
      simp [htext, Session.close, Session.closeActive, Session.ClosedWith]
  · refine ⟨statusOr t.status "interrupted", ?_, ?_⟩ <;>
      cases t.status <;>
      simp [statusOr, Session.closeActive, Session.close,
        Session.ClosedWith]
  · exact absurd hr hexit

theorem stream_closed : ∃ c,
    t.events.foldlM (note fun _ => "completed") {} = .ok c
      ∧ (streamPrompt t).ClosedWith (if t.raises = some .exception then
        statusOr t.status "failed" else c.finalStatus) := by
  obtain ⟨c, hc⟩ := (exists_foldlM_iff note_ok_iff {}).2 h
  refine ⟨c, hc, ?_⟩
  simp [streamPrompt, hc, Session.close, Session.ClosedWith]

end Unraised

theorem truthful_iff {a b c : String} (hexit : t.raises ≠ some .generatorExit)
    (hrun : (runPrompt t).ClosedWith a)
    (hreport : (runPromptReport t waits).ClosedWith b)
    (hstream : (streamPrompt t).ClosedWith c) :
    ClosesTruthfully t waits
      ↔ a = b ∧ a = c ∧ (a = "completed" → ∃ e ∈ t.events, e.Completes) := by
  unfold ClosesTruthfully sessions
  rw [if_neg hexit]
  simp only [Session.ClosedWith] at *
  simp [hrun, hreport, hstream]
  aesop

theorem lastTerminal_isSome :
    t.lastTerminal.isSome ↔ ∃ e ∈ t.events, e.terminal.isSome := by
  rw [Turn.lastTerminal, List.getLast?_isSome, ← not_iff_not]
  simp

theorem early_close_iff (hexit : t.raises = some .generatorExit)
    (h : ∀ e ∈ t.events, ¬ e.Raises) :
    ClosesTruthfully t waits ↔ t.lastTerminal.isSome := by
  obtain ⟨c, hc, hstream⟩ := stream_closed h
  have hfinal : ∀ s ∈ sessions t waits, s.ClosedWith c.finalStatus := by
    simpa [sessions, hexit] using hstream
  constructor
  · rintro ⟨f, hf, htruth⟩
    rw [lastTerminal_isSome]
    rcases stream_last hc with ⟨-, hnone⟩ | ⟨e, he, hterm, -⟩
    · have hmem : streamPrompt t ∈ sessions t waits := by
        simp [sessions, hexit]
      have hlast := (hf _ hmem).2.symm.trans (hfinal _ hmem).2
      obtain ⟨e, he, term, hterm, -⟩ := htruth (by simpa [hnone] using hlast)
      exact ⟨e, he, by simp [hterm]⟩
    · exact ⟨e, he, hterm⟩
  · intro hsome
    refine ⟨_, hfinal, fun hcompleted => ?_⟩
    rcases stream_last hc with ⟨hnone, -⟩ | ⟨e, he, -, hiff⟩
    · simp [Turn.lastTerminal, hnone] at hsome
    · exact ⟨e, he, hiff.1 hcompleted⟩

theorem finished_iff {c c' : Collector} {text : String}
    (hc : t.events.foldlM (note fun _ => "completed") {} = .ok c)
    (hc' : collect t = .ok c')
    (htext : closeStatus t.lastTerminal t.status c'.finalStatus = .ok text) :
    ("completed" = text ∧ "completed" = c.finalStatus
        ∧ ("completed" = "completed" → ∃ e ∈ t.events, e.Completes))
      ↔ t.lastTerminal.isSome
        ∧ (∀ e ∈ t.events, e.terminal.isSome → e.Completes)
        ∧ statusOr t.status "completed" = "completed" := by
  have hfinal := collect_completed_iff hc'
  constructor
  · rintro ⟨rfl, -, hreached⟩
    obtain ⟨e, he, term, hterm, -⟩ := hreached rfl
    have hsome := lastTerminal_isSome.2 ⟨e, he, by simp [hterm]⟩
    obtain ⟨last, hlast⟩ := Option.isSome_iff_exists.1 hsome
    rw [hlast, closeStatus_completed, statusOr_completed] at htext
    exact ⟨hsome, (hfinal.1 htext.2.1).2, htext.2.2⟩
  · rintro ⟨hsome, hall, hstatus⟩
    obtain ⟨last, hlast⟩ := Option.isSome_iff_exists.1 hsome
    obtain ⟨e, he, hterm⟩ := List.mem_filterMap.1
      (List.mem_of_getLast? hlast)
    obtain ⟨term, hterm', hcloses⟩ := hall e he (by simp [hterm])
    cases hterm.symm.trans hterm'
    have hsilent := (closeStatus_completed.1 hcloses).1
    have htext' : closeStatus t.lastTerminal t.status c'.finalStatus
        = .ok "completed" := by
      rw [hlast, closeStatus_completed, hfinal.2 ⟨rfl, hall⟩]
      exact ⟨hsilent, hstatus⟩
    refine ⟨Except.ok.inj (htext'.symm.trans htext), ?_,
      fun _ => ⟨e, he, _, hterm, hcloses⟩⟩
    rcases stream_last hc with ⟨-, hnone⟩ | ⟨x, hx, hx', hiff⟩
    · exact hnone.symm
    · exact (hiff.2 (hall x hx hx')).symm

end Closed

/-- The helpers close their session once and truthfully just where the end
of the turn is unambiguous, or a terminal makes each of them raise. -/
theorem closes_truthfully_iff (t : Turn) (waits : Bool) :
    ClosesTruthfully t waits
      ↔ (∃ e ∈ t.events, e.Raises) ∨ t.Unambiguous := by
  by_cases h : ∃ e ∈ t.events, e.Raises
  · obtain ⟨status, hs⟩ := closed_raised waits h
    exact iff_of_true
      ⟨_, hs, fun hc => absurd hc (statusOr_failed status)⟩ (.inl h)
  rw [or_iff_right h]
  have h : ∀ e ∈ t.events, ¬ e.Raises := fun e he hr => h ⟨e, he, hr⟩
  unfold Turn.Unambiguous
  by_cases hexit : t.raises = some .generatorExit
  · rw [early_close_iff waits hexit h, hexit]
  have hrun := runPrompt_closed h
  obtain ⟨c, hc, hstream⟩ := stream_closed h
  obtain ⟨c', hc', text, hreport, htext⟩ :=
    report_closed waits h hexit
  rw [truthful_iff waits hexit hrun hreport hstream]
  rcases hr : t.raises with _ | _ | _ | _ <;> rw [hr] at htext
  · exact finished_iff hc hc' htext
  · rw [show closeStatus _ _ _ = _ from htext]
    exact ⟨fun hi => congrArg _ hi.1.symm, fun ht =>
      ⟨(Except.ok.inj ht).symm, rfl,
        fun hs => absurd hs (statusOr_failed t.status)⟩⟩
  · exact iff_of_false (fun hi => htext hi.1.symm) id
  · exact absurd hr hexit

/-- However the turn ends, each helper closes its session once. -/
theorem sessions_closed_once (t : Turn) (waits : Bool) :
    ∀ s ∈ sessions t waits, ∃ finalStatus, s.ClosedWith finalStatus := by
  intro s hs
  by_cases h : ∃ e ∈ t.events, e.Raises
  · obtain ⟨status, hall⟩ := closed_raised waits h
    exact ⟨_, hall s hs⟩
  have h : ∀ e ∈ t.events, ¬ e.Raises := fun e he hr => h ⟨e, he, hr⟩
  obtain ⟨c, -, hstream⟩ := stream_closed h
  unfold sessions at hs
  split at hs
  · exact List.mem_singleton.1 hs ▸ ⟨_, hstream⟩
  next hexit =>
  obtain ⟨-, -, text, hreport, -⟩ := report_closed waits h hexit
  simp only [List.mem_cons, List.not_mem_nil, or_false] at hs
  rcases hs with rfl | rfl | rfl
  · exact ⟨_, runPrompt_closed h⟩
  · exact ⟨_, hreport⟩
  · exact ⟨_, hstream⟩

theorem cancelled_run_closed_once :
    let t : Turn := ⟨[], some .cancelled, .running, none, none⟩
    ∃ text, (runPrompt t).ClosedWith text := by
  intro t
  exact sessions_closed_once t false _ List.mem_cons_self

/-- `run_prompt` closes a cancelled run as completed. -/
theorem cancelled_run_completes :
    ¬ ClosesTruthfully
      { events := [], raises := some .cancelled, status := .running
        closing := none, finalization := none } false := by
  rintro ⟨f, hf, htruth⟩
  have hrun := (hf _ List.mem_cons_self).2
  obtain ⟨e, he, -⟩ := htruth (List.singleton_inj.1 hrun).symm
  cases he

end WeaveRuntime.Hosts
