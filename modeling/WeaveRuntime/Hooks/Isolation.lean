/-
Which registrations a dispatch calls.

A dispatch goes through the registrations it selected when it began, in
the order of their precedence. Beside the state of the bus a log is kept
of each dispatch: what it was for, what it selected, and the record of
each registration at the moment its handler was called. The log is not
part of the bus and decides nothing (`watched_run_hooks`).

Of a record only the activation state and the descendants ever move
(`Later`), so what was selected by its phase, session, turn and visibility
is still so when it is called (`Follows`). The activation state is the one
thing that may have moved: a registration taken out of use while it is due
is called all the same. Where no step does that (`Undisturbed`), what is
called is ACTIVE.
-/
import WeaveRuntime.Hooks.Once

namespace WeaveRuntime.Hooks

open Lib

-- ========= the records

def RegistrationRecord.Later (r r' : RegistrationRecord) : Prop :=
  ∃ st ds, r' = { r with activationState := st, descendantIds := ds }

namespace RegistrationRecord.Later

end RegistrationRecord.Later

namespace HookBus

/-- What the order of a session lists is registered for it, and its
precedence ends in its id. -/
def Located (bus : HookBus) : Prop :=
  ∀ sessionId, ∀ id ∈ bus.order sessionId, ∀ r,
    bus.records.get? id = some r →
    r.sessionId = some sessionId ∧ r.precedence.getLast? = some id

variable {bus : HookBus}

theorem Evolves.earlier {hit : Nat → HookActivationState → Prop}
    {bus' : HookBus} (hev : bus.Evolves hit bus') {id : Nat}
    (hid : id ≤ bus.creationCounter) {r' : RegistrationRecord}
    (hr' : bus'.records.get? id = some r') :
    ∃ r, bus.records.get? id = some r ∧ r.Becomes (hit id) r' := by
  cases hr : bus.records.get? id with
  | none =>
    have := hev.fresh id r' hr hr'
    omega
  | some r =>
    obtain ⟨q, hq, hb⟩ := hev.kept id r hr
    cases hr'.symm.trans hq
    exact ⟨r, rfl, hb⟩

theorem Located.of_evolves {hit : Nat → HookActivationState → Prop}
    {bus' : HookBus} (h : bus.Located) (hlaw : bus.Lawful)
    (hev : bus.Evolves hit bus')
    (horder : ∀ sid, bus'.order sid = bus.order sid
      ∨ ∃ r, bus'.records.get? (bus.creationCounter + 1) = some r
        ∧ r.sessionId = some sid
        ∧ r.precedence.getLast? = some (bus.creationCounter + 1)
        ∧ bus'.order sid = bus.order sid ++ [bus.creationCounter + 1]) :
    bus'.Located := by
  intro sid id hid r' hr'
  have hold : id ∈ bus.order sid →
      r'.sessionId = some sid ∧ r'.precedence.getLast? = some id := by
    intro hmem
    obtain ⟨r, hr, ⟨st, ds, rfl⟩, -⟩ :=
      hev.earlier (hlaw.listed sid id hmem) hr'
    exact h sid id hmem r hr
  obtain heq | ⟨r, hr, hsession, hlast, heq⟩ := horder sid
  · rw [heq] at hid
    exact hold hid
  · rw [heq, List.mem_append, List.mem_singleton] at hid
    obtain hmem | rfl := hid
    · exact hold hmem
    · cases hr.symm.trans hr'
      exact ⟨hsession, hlast⟩

theorem Located.register (h : bus.Located) (hlaw : bus.Lawful)
    (request : HookRegistrationRequest) (surface : RegistrationSurface)
    (generatedOwner : String) :
    (bus.registerRequest request surface generatedOwner).1.Located := by
  refine h.of_evolves hlaw
    (registerRequest_spec hlaw request surface generatedOwner).2 ?_
  intro sid
  unfold registerRequest
  dsimp only
  cases validateRequest bus request surface _ with
  | some reason => exact Or.inl rfl
  | none =>
    dsimp only
    split
    · exact Or.inl rfl
    · split
      · exact Or.inl rfl
      · next sessionId hs =>
        by_cases hsid : sid = sessionId
        · subst hsid
          refine Or.inr ⟨_, Dict.get?_insert_self .., hs, rfl, ?_⟩
          refine (order_addToSession _ sid _ sid).trans ?_
          rw [if_pos rfl]
          rfl
        · refine Or.inl ((order_addToSession _ sessionId _ sid).trans ?_)
          rw [if_neg hsid]
          rfl

theorem Located.materializeTemplate (h : bus.Located) (hlaw : bus.Lawful)
    (sessionId : String) (templateId : Nat) :
    (bus.materializeTemplate sessionId templateId).Located := by
  refine h.of_evolves hlaw
    (materializeTemplate_spec hlaw sessionId templateId).2 ?_
  intro sid
  obtain ⟨heq, -⟩ | ⟨template, hm, heq⟩ :=
    bus.materializeTemplate_cases sessionId templateId
  · rw [heq]
    exact Or.inl rfl
  · rw [heq]
    have hne : bus.creationCounter + 1 ≠ templateId := by
      have := (hlaw.keyed templateId template hm.found).2
      omega
    by_cases hsid : sid = sessionId
    · subst hsid
      refine Or.inr ⟨_, (Dict.get?_insert_of_ne _ _ hne).trans
        (Dict.get?_insert_self ..), rfl, rfl, ?_⟩
      refine (order_addToSession _ sid _ sid).trans ?_
      rw [if_pos rfl]
      rfl
    · refine Or.inl ((order_addToSession _ sessionId _ sid).trans ?_)
      rw [if_neg hsid]
      rfl

theorem Located.materializeSession (h : bus.Located) (hlaw : bus.Lawful)
    (sessionId : String) : (bus.materializeSession sessionId).Located := by
  unfold HookBus.materializeSession
  generalize bus.templateOrder = ids
  induction ids generalizing bus with
  | nil => exact h
  | cons id ids ih =>
    exact ih (h.materializeTemplate hlaw sessionId id)
      (materializeTemplate_spec hlaw sessionId id).1

end HookBus

variable {a : HookAction} {bus bus' : HookBus} {call : Nat}
  {hit : Nat → HookActivationState → Prop} {l : DispatchLog}
  {w w' : WatchedHooks}

theorem HookBus.Located.of_order (h : bus.Located) (hlaw : bus.Lawful)
    (hev : bus.Evolves hit bus')
    (horder : bus'.sessionOrder = bus.sessionOrder) : bus'.Located := by
  refine h.of_evolves hlaw hev fun sid => Or.inl ?_
  unfold HookBus.order
  rw [horder]

theorem located_step {s s' : HookState} (hlaw : s.bus.Lawful)
    (h : s.bus.Located) (hstep : hookStep s a = some s')
    (hdispatch : ∀ call sid payload context,
      a ≠ .dispatch call sid payload context)
    (hends : ∀ call outcome, a ≠ .handlerEnds call outcome) :
    s'.bus.Located := by
  have hsame : ∀ bus' : HookBus, bus'.records = s.bus.records →
      bus'.sessionOrder = s.bus.sessionOrder → bus'.Located := by
    intro bus' hrecords horder sid id hid r hr
    unfold HookBus.order at hid
    rw [horder] at hid
    rw [hrecords] at hr
    exact h sid id hid r hr
  have hoff : ∀ (test : RegistrationRecord → Bool)
      (state : HookActivationState) (ids : List Nat), state.over = true →
      (HookBus.deactivate test state s.bus ids).Located :=
    fun test state ids hover => h.of_order hlaw
      (HookBus.deactivate_spec hlaw test state hover ids).2 (by simp)
  cases a with
  | register request surface generatedOwner =>
    cases hstep
    exact h.register hlaw request surface generatedOwner
  | materializeSession sessionId =>
    cases hstep
    exact h.materializeSession hlaw sessionId
  | releaseRegistration id =>
    cases hstep
    refine h.of_order hlaw (HookBus.releaseRegistration_spec hlaw id).2 ?_
    obtain heq | ⟨r, -, -, heq⟩ := s.bus.releaseRegistration_cases id
    · exact congrArg HookBus.sessionOrder heq
    · exact (congrArg HookBus.sessionOrder heq).trans (by simp)
  | releaseOwner sessionId owner =>
    cases hstep
    exact hoff _ _ _ rfl
  | clearSession sessionId =>
    cases hstep
    exact hoff _ _ _ rfl
  | releaseTurn sessionId turnId =>
    cases hstep
    cases turnId with
    | none => exact h
    | some turn => exact hoff _ _ _ rfl
  | dispatch call sid payload context =>
    exact absurd rfl (hdispatch call sid payload context)
  | handlerEnds call outcome => exact absurd rfl (hends call outcome)
  | _ =>
    cases hstep
    exact hsame _ rfl rfl

-- ============= the log

/-- What is kept of a dispatch: what it is for, what it selected when it
began, and the records as they were when their handlers were called. -/
structure DispatchLog where
  sessionId : String
  payload : HookPayload
  context : DispatchContext
  selected : List RegistrationRecord
  called : List RegistrationRecord := []

/-- The bus with the log of the last dispatch under each number. -/
structure WatchedHooks where
  hooks : HookState := {}
  log : Nat → Option DispatchLog := fun _ => none

/-- The record whose handler a dispatch has just called. -/
def HookState.calledNow (s : HookState) (call : Nat) :
    List RegistrationRecord :=
  ((s.dispatches.get? call).bind fun d =>
    s.bus.records.get? d.running).toList

/-- The logs, once `s'` has been reached. -/
def WatchedHooks.logged (w : WatchedHooks) (s' : HookState) :
    HookAction → Nat → Option DispatchLog
  | .dispatch call sessionId payload context =>
    Function.update w.log call (some
      { sessionId := sessionId
        payload := payload
        context := context
        selected := (w.hooks.bus.materializeSession
          sessionId).activeRecords sessionId payload context
        called := s'.calledNow call })
  | .handlerEnds call _ =>
    Function.update w.log call ((w.log call).map fun l =>
      { l with called := l.called ++ s'.calledNow call })
  | _ => w.log

def watchedStep (w : WatchedHooks) (a : HookAction) : Option WatchedHooks :=
  (hookStep w.hooks a).map fun s' => { hooks := s', log := w.logged s' a }

def watchedSystem : System WatchedHooks HookAction := ⟨watchedStep⟩

-- ======= the invariant

/-- A record but for what moves. -/
def RegistrationRecord.fixed (r : RegistrationRecord) : RegistrationRecord :=
  { r with activationState := .active, descendantIds := [] }

theorem RegistrationRecord.Later.fixed {r r' : RegistrationRecord}
    (h : r.Later r') : r'.fixed = r.fixed := by
  obtain ⟨st, ds, rfl⟩ := h
  rfl

/-- What was selected was selected rightly and in order, and what has been
called was selected, in that order. -/
structure DispatchLog.Fair (l : DispatchLog) : Prop where
  chosen : ∀ r ∈ l.selected, r.sessionId = some l.sessionId
    ∧ r.selected l.payload l.context = true
  ordered : l.selected.Pairwise fun a b => a.precedence < b.precedence
  distinct : (l.selected.map (·.registrationId)).Nodup
  called : (l.called.map (·.fixed)).Sublist (l.selected.map (·.fixed))

/-- What a dispatch still has ahead: selected records, not called yet, and
in the bus as they were selected but for what moves. -/
def DispatchLog.Ahead (l : DispatchLog) (bus : HookBus) (ids : List Nat) :
    Prop :=
  ∃ rest : List RegistrationRecord,
    rest.map (·.registrationId) = ids
      ∧ ((l.called ++ rest).map (·.fixed)).Sublist
          (l.selected.map (·.fixed))
      ∧ ∀ q ∈ rest, ∃ r, bus.records.get? q.registrationId = some r
          ∧ r.fixed = q.fixed

theorem DispatchLog.Ahead.of_evolves {ids : List Nat} (h : l.Ahead bus ids)
    (hev : bus.Evolves hit bus') : l.Ahead bus' ids := by
  obtain ⟨rest, hids, hsub, hrest⟩ := h
  refine ⟨rest, hids, hsub, fun q hq => ?_⟩
  obtain ⟨r, hr, hfixed⟩ := hrest q hq
  obtain ⟨r', hr', hb⟩ := hev.kept _ r hr
  have hlater : r.Later r' := hb.same
  exact ⟨r', hr', hlater.fixed.trans hfixed⟩

structure WatchedHooks.Follows (w : WatchedHooks) : Prop where
  lawful : w.hooks.bus.Lawful
  located : w.hooks.bus.Located
  fair : ∀ call l, w.log call = some l → l.Fair
  ahead : ∀ call d, w.hooks.dispatches.get? call = some d →
    ∃ l, w.log call = some l ∧ l.Ahead w.hooks.bus d.ahead

theorem follows_init : WatchedHooks.Follows {} := by
  refine ⟨HookState.tracked_init.lawful, ?_, ?_, ?_⟩
  · intro sid id hid
    cases hid
  · intro call l hl
    cases hl
  · intro call d hd
    cases hd

theorem WatchedHooks.Follows.of_bus (h : w.Follows) (hlaw : bus'.Lawful)
    (hloc : bus'.Located) (hev : w.hooks.bus.Evolves hit bus') :
    WatchedHooks.Follows
      { w with hooks := { w.hooks with bus := bus' } } := by
  refine ⟨hlaw, hloc, h.fair, fun call d hd => ?_⟩
  obtain ⟨l, hl, hahead⟩ := h.ahead call d hd
  exact ⟨l, hl, hahead.of_evolves hev⟩

theorem WatchedHooks.Follows.proceed (h : w.Follows) (hfair : l.Fair)
    {target : Option String} {onceToExpire ids : List Nat}
    (hahead : l.Ahead w.hooks.bus ids) :
    WatchedHooks.Follows
      { hooks := w.hooks.proceed call target onceToExpire ids
        log := Function.update w.log call (some { l with
          called := l.called ++ (w.hooks.proceed call target onceToExpire
            ids).calledNow call }) } := by
  unfold HookState.proceed
  cases hnext : w.hooks.bus.nextHandler target ids with
  | none =>
    obtain ⟨hlaw, hev⟩ := HookState.expire_spec h.lawful onceToExpire
    have hnothing : HookState.calledNow { w.hooks with
        bus := HookBus.deactivate (fun _ => true) .expired {
          w.hooks.bus with
          dispatchCounter := w.hooks.bus.dispatchCounter + 1 } onceToExpire
        dispatches := w.hooks.dispatches.erase call } call = [] := by
      simp [HookState.calledNow]
    dsimp only
    rw [hnothing, List.append_nil]
    refine ⟨hlaw, h.located.of_order h.lawful hev (by simp), ?_, ?_⟩
    · intro c l' hl'
      by_cases hc : c = call
      · subst hc
        cases (Function.update_self ..).symm.trans hl'
        exact hfair
      · exact h.fair c l' ((Function.update_of_ne hc ..).symm.trans hl')
    · intro c d hd
      rw [Dict.get?_erase] at hd
      by_cases hc : c = call
      · rw [if_pos hc] at hd
        cases hd
      · rw [if_neg hc] at hd
        obtain ⟨l', hl', hahead'⟩ := h.ahead c d hd
        exact ⟨l', (Function.update_of_ne hc ..).trans hl',
          hahead'.of_evolves hev⟩
  | some next =>
    obtain ⟨id, rest⟩ := next
    obtain ⟨⟨pre, rfl⟩, r, hr, -⟩ := HookBus.nextHandler_eq_some hnext
    obtain ⟨records, hids, hsub, hrecords⟩ := hahead
    obtain ⟨front, back, rfl, hfront, hback⟩ :=
      List.map_eq_append_iff.1 hids
    obtain ⟨q, later, rfl, hq, hlater⟩ := List.map_eq_cons_iff.1 hback
    have hnow : HookState.calledNow { w.hooks with
        dispatches := w.hooks.dispatches.insert call
          ⟨target, id, rest, onceToExpire⟩
        invoked := w.hooks.invoked ++ [id] } call = [r] := by
      simp [HookState.calledNow, hr]
    have hfixed : r.fixed = q.fixed := by
      obtain ⟨r', hr', hfixed⟩ := hrecords q
        (List.mem_append_right _ List.mem_cons_self)
      rw [hq, hr] at hr'
      cases hr'
      exact hfixed
    -- the records that are passed over leave the list
    have hshorter : (((l.called ++ [r]) ++ later).map
        (·.fixed)).Sublist (l.selected.map (·.fixed)) := by
      refine List.Sublist.trans ?_ hsub
      simp only [List.map_append, List.map_cons, List.map_nil, hfixed,
        List.append_assoc]
      exact (List.Sublist.refl _).append (List.sublist_append_right _ _)
    dsimp only
    rw [hnow]
    refine ⟨h.lawful, h.located, ?_, ?_⟩
    · intro c l' hl'
      by_cases hc : c = call
      · subst hc
        cases (Function.update_self ..).symm.trans hl'
        refine ⟨hfair.chosen, hfair.ordered, hfair.distinct, ?_⟩
        refine List.Sublist.trans ?_ hshorter
        exact (List.sublist_append_left _ _).map _
      · exact h.fair c l' ((Function.update_of_ne hc ..).symm.trans hl')
    · intro c d hd
      by_cases hc : c = call
      · subst hc
        rw [Dict.get?_insert_self] at hd
        cases hd
        refine ⟨_, Function.update_self .., later, hlater, hshorter, ?_⟩
        intro p hp
        exact hrecords p (List.mem_append_right _
          (List.mem_cons_of_mem _ hp))
      · rw [Dict.get?_insert_of_ne _ _ hc] at hd
        obtain ⟨l', hl', hahead'⟩ := h.ahead c d hd
        exact ⟨l', (Function.update_of_ne hc ..).trans hl', hahead'⟩

-- =========== the steps

theorem pairwise_precedence (hlaw : bus.Lawful) (hloc : bus.Located)
    (sessionId : String) (payload : HookPayload) (context : DispatchContext) :
    (bus.activeRecords sessionId payload context).Pairwise
      fun a b => a.precedence < b.precedence := by
  have hsorted : (bus.activeRecords sessionId payload context).Pairwise
      fun a b => a.precedence ≤ b.precedence := by
    unfold HookBus.activeRecords
    exact List.pairwise_insertionSort (fun a b : RegistrationRecord =>
      a.precedence ≤ b.precedence) _
  have hdistinct := List.pairwise_map.1
    (HookState.nodup_activeRecords hlaw sessionId payload context)
  -- equal precedences end in equal ids
  refine (hsorted.and hdistinct).imp_of_mem ?_
  intro a b ha hb hab
  refine lt_of_le_of_ne hab.1 fun heq => hab.2 ?_
  obtain ⟨⟨i, hi, hra⟩, -⟩ := HookState.mem_activeRecords.1 ha
  obtain ⟨⟨j, hj, hrb⟩, -⟩ := HookState.mem_activeRecords.1 hb
  have hlast := (hloc sessionId i hi a hra).2
  rw [heq, (hloc sessionId j hj b hrb).2] at hlast
  rw [(hlaw.keyed i a hra).1, (hlaw.keyed j b hrb).1]
  exact (Option.some.inj hlast).symm

theorem fair_selection (hlaw : bus.Lawful) (hloc : bus.Located)
    (sessionId : String) (payload : HookPayload) (context : DispatchContext) :
    DispatchLog.Fair
        { sessionId := sessionId, payload := payload, context := context
          selected := bus.activeRecords sessionId payload context }
      ∧ DispatchLog.Ahead
          { sessionId := sessionId, payload := payload, context := context
            selected := bus.activeRecords sessionId payload context }
          bus ((bus.activeRecords sessionId payload context).map
            RegistrationRecord.registrationId) := by
  refine ⟨⟨?_, pairwise_precedence hlaw hloc sessionId payload context,
    HookState.nodup_activeRecords hlaw sessionId payload context,
    List.nil_sublist _⟩, _, rfl, List.Sublist.refl _, ?_⟩
  · intro r hr
    obtain ⟨⟨id, hid, hget⟩, hselected⟩ := HookState.mem_activeRecords.1 hr
    exact ⟨(hloc sessionId id hid r hget).1, hselected⟩
  · intro r hr
    obtain ⟨⟨id, -, hget⟩, -⟩ := HookState.mem_activeRecords.1 hr
    exact ⟨r, (hlaw.keyed id r hget).1.symm ▸ hget, rfl⟩

theorem WatchedHooks.Follows.erase (h : w.Follows) (call : Nat) :
    WatchedHooks.Follows { w with hooks := { w.hooks with
      dispatches := w.hooks.dispatches.erase call } } := by
  refine ⟨h.lawful, h.located, h.fair, fun c d hd => ?_⟩
  rw [Dict.get?_erase] at hd
  by_cases hc : c = call
  · rw [if_pos hc] at hd
    cases hd
  · rw [if_neg hc] at hd
    exact h.ahead c d hd

theorem logged_handlerEnds (hl : w.log call = some l) (s' : HookState)
    (outcome : HandlerOutcome) :
    w.logged s' (.handlerEnds call outcome)
      = Function.update w.log call (some
          { l with called := l.called ++ s'.calledNow call }) := by
  simp only [WatchedHooks.logged, hl, Option.map_some]

theorem logged_cancelled (hl : w.log call = some l) :
    Function.update w.log call (some { l with
      called := l.called ++ HookState.calledNow { w.hooks with
        dispatches := w.hooks.dispatches.erase call } call }) = w.log := by
  have hnothing : HookState.calledNow { w.hooks with
      dispatches := w.hooks.dispatches.erase call } call = [] := by
    simp [HookState.calledNow]
  rw [hnothing, List.append_nil, ← hl, Function.update_eq_self]

theorem operation_of_step {s s' : HookState} (hlaw : s.bus.Lawful)
    (hstep : hookStep s a = some s') (hdispatch : ∀ call sid payload context,
      a ≠ .dispatch call sid payload context)
    (hends : ∀ call outcome, a ≠ .handlerEnds call outcome) :
    ∃ bus', s' = { s with bus := bus' } ∧ bus'.Lawful
      ∧ s.bus.Evolves (s.bus.Moves a) bus' := by
  obtain hbus | ⟨call, sid, payload, context, heq, -⟩
    | ⟨call, d, outcome, heq, -⟩ := hookStep_cases hlaw hstep
  · exact hbus
  · exact absurd heq (hdispatch call sid payload context)
  · exact absurd heq (hends call outcome)

theorem logged_operation (s' : HookState)
    (hdispatch : ∀ call sid payload context,
      a ≠ .dispatch call sid payload context)
    (hends : ∀ call outcome, a ≠ .handlerEnds call outcome) :
    w.logged s' a = w.log := by
  cases a with
  | dispatch call sid payload context =>
    exact absurd rfl (hdispatch call sid payload context)
  | handlerEnds call outcome => exact absurd rfl (hends call outcome)
  | _ => rfl

theorem watchedStep_cases (hlaw : w.hooks.bus.Lawful)
    (hstep : watchedStep w a = some w') :
    (∃ bus', w' = { w with hooks := { w.hooks with bus := bus' } }
        ∧ bus'.Lawful ∧ w.hooks.bus.Evolves (w.hooks.bus.Moves a) bus'
        ∧ (w.hooks.bus.Located → bus'.Located))
      ∨ (∃ call sid payload context,
        a = .dispatch call sid payload context
          ∧ w.hooks.dispatches.get? call = none
          ∧ w' = { hooks := w.hooks.dispatch call sid payload context
                   log := w.logged (w.hooks.dispatch call sid payload
                     context) a })
      ∨ ∃ call d outcome, a = .handlerEnds call outcome
          ∧ w.hooks.dispatches.get? call = some d
          ∧ w' = { hooks := w.hooks.handlerEnds call d outcome
                   log := w.logged (w.hooks.handlerEnds call d outcome)
                     a } := by
  unfold watchedStep at hstep
  rw [Option.map_eq_some_iff] at hstep
  obtain ⟨s', hs, rfl⟩ := hstep
  by_cases hdispatch : ∃ call sid payload context,
      a = .dispatch call sid payload context
  · obtain ⟨call, sid, payload, context, rfl⟩ := hdispatch
    simp only [hookStep] at hs
    split at hs
    · cases hs
    · next hfree =>
      cases hs
      rw [Dict.contains_iff] at hfree
      exact Or.inr (Or.inl ⟨call, sid, payload, context, rfl,
        Dict.get?_eq_none_iff.2 hfree, rfl⟩)
  by_cases hends : ∃ call outcome, a = .handlerEnds call outcome
  · obtain ⟨call, outcome, rfl⟩ := hends
    simp only [hookStep, Option.map_eq_some_iff] at hs
    obtain ⟨d, hd, rfl⟩ := hs
    exact Or.inr (Or.inr ⟨call, d, outcome, rfl, hd, rfl⟩)
  · have hno : ∀ call sid payload context,
        a ≠ .dispatch call sid payload context :=
      fun call sid payload context heq =>
        hdispatch ⟨call, sid, payload, context, heq⟩
    have hno' : ∀ call outcome, a ≠ .handlerEnds call outcome :=
      fun call outcome heq => hends ⟨call, outcome, heq⟩
    obtain ⟨bus', rfl, hlaw', hev⟩ := operation_of_step hlaw hs hno hno'
    refine Or.inl ⟨bus', ?_, hlaw', hev, fun hloc =>
      located_step hlaw hloc hs hno hno'⟩
    rw [logged_operation _ hno hno']

theorem follows_step (h : w.Follows) (hstep : watchedStep w a = some w') :
    w'.Follows := by
  obtain ⟨bus', rfl, hlaw, hev, hloc⟩
    | ⟨call, sid, payload, context, rfl, -, rfl⟩
    | ⟨call, d, outcome, rfl, hd, rfl⟩ := watchedStep_cases h.lawful hstep
  · exact h.of_bus hlaw (hloc h.located) hev
  · obtain ⟨hlaw, hev⟩ := HookBus.materializeSession_spec h.lawful sid
    have hloc := h.located.materializeSession h.lawful sid
    obtain ⟨hfair, hahead⟩ := fair_selection hlaw hloc sid payload context
    exact (h.of_bus hlaw hloc hev).proceed hfair hahead
  · obtain ⟨l, hl, hahead⟩ := h.ahead call d hd
    rw [HookState.handlerEnds_eq, logged_handlerEnds hl]
    by_cases hcancel : outcome = .cancelled
    · simp only [if_pos hcancel]
      rw [logged_cancelled hl]
      exact h.erase call
    · simp only [if_neg hcancel]
      exact h.proceed (h.fair call l hl) hahead

-- ========== out of use

namespace HookState

/-- The step takes a registration out of use: it is released or cleared, or
it is a once hook of a dispatch that ends. -/
def TakesOut (s : HookState) (a : HookAction) (id : Nat) : Prop :=
  s.bus.Releases id a
    ∨ ∃ call d outcome, a = .handlerEnds call outcome
      ∧ s.dispatches.get? call = some d ∧ outcome ≠ .cancelled
      ∧ s.bus.nextHandler d.target d.ahead = none
      ∧ id ∈ s.afterHandler d outcome

/-- The condition on a step: what it takes out of use is not due in a
dispatch that is suspended. -/
def Undisturbed (s : HookState) (a : HookAction) : Prop :=
  ∀ id, s.TakesOut a id → ∀ call, ¬ s.Due call id

end HookState

structure WatchedHooks.Live (w : WatchedHooks) : Prop where
  due : ∀ call id, w.hooks.Due call id →
    ∀ r, w.hooks.bus.records.get? id = some r → r.active = true
  called : ∀ call l, w.log call = some l →
    ∀ r ∈ l.called, r.active = true

theorem live_init : WatchedHooks.Live {} := by
  refine ⟨?_, ?_⟩
  · intro call id hdue
    obtain ⟨d, r, hd, -⟩ := hdue
    cases hd
  · intro call l hl
    cases hl

theorem WatchedHooks.Follows.known (h : w.Follows) {d : DispatchCall}
    (hd : w.hooks.dispatches.get? call = some d) {id : Nat}
    (hid : id ∈ d.ahead) : id ≤ w.hooks.bus.creationCounter := by
  obtain ⟨l, -, rest, hids, -, hrest⟩ := h.ahead call d hd
  rw [← hids] at hid
  obtain ⟨q, hq, rfl⟩ := List.mem_map.1 hid
  obtain ⟨r, hr, -⟩ := hrest q hq
  exact (h.lawful.keyed _ r hr).2

theorem active_of_evolves (h : w.Follows) (hlive : w.Live)
    (hev : w.hooks.bus.Evolves hit bus') {d : DispatchCall} {id : Nat}
    {r' : RegistrationRecord} (hd : w.hooks.dispatches.get? call = some d)
    (hid : id ∈ d.ahead) (hr' : bus'.records.get? id = some r')
    (hm : matcherMatches r'.matcher d.target = true)
    (hhit : w.hooks.Due call id → ∀ st, ¬ hit id st) : r'.active = true := by
  obtain ⟨r, hr, hb⟩ := hev.earlier (h.known hd hid) hr'
  have hdue : w.hooks.Due call id := ⟨d, r, hd, hid, hr, hb.matcher ▸ hm⟩
  have hactive := active_iff.1 (hlive.due call id hdue r hr)
  exact active_iff.2 (hb.active_stays (hhit hdue) hactive)

theorem WatchedHooks.Live.of_bus (hlive : w.Live) (h : w.Follows)
    (hev : w.hooks.bus.Evolves hit bus')
    (hhit : ∀ call id, w.hooks.Due call id → ∀ st, ¬ hit id st) :
    WatchedHooks.Live { w with hooks := { w.hooks with bus := bus' } } := by
  refine ⟨?_, hlive.called⟩
  intro call id hdue r' hr'
  obtain ⟨d, q, hd, hid, hq, hm⟩ := hdue
  cases hr'.symm.trans hq
  exact active_of_evolves h hlive hev hd hid hr' hm (hhit call id)

theorem WatchedHooks.Live.proceed (hlive : w.Live) (h : w.Follows)
    (hcalled : ∀ r ∈ l.called, r.active = true) {target : Option String}
    {onceToExpire ids : List Nat}
    (hids : ∀ id ∈ ids, ∀ r, w.hooks.bus.records.get? id = some r →
      matcherMatches r.matcher target = true → r.active = true)
    (hquiet : w.hooks.bus.nextHandler target ids = none →
      ∀ id ∈ onceToExpire, ∀ c, ¬ w.hooks.Due c id) :
    WatchedHooks.Live
      { hooks := w.hooks.proceed call target onceToExpire ids
        log := Function.update w.log call (some { l with
          called := l.called ++ (w.hooks.proceed call target onceToExpire
            ids).calledNow call }) } := by
  unfold HookState.proceed
  cases hnext : w.hooks.bus.nextHandler target ids with
  | none =>
    obtain ⟨-, hev⟩ := HookState.expire_spec h.lawful onceToExpire
    refine ⟨?_, ?_⟩
    · intro c id hdue r' hr'
      obtain ⟨d, q, hd, hid, hq, hm⟩ := hdue
      cases hr'.symm.trans hq
      rw [Dict.get?_erase] at hd
      by_cases hc : c = call
      · rw [if_pos hc] at hd
        cases hd
      · rw [if_neg hc] at hd
        refine active_of_evolves h hlive hev hd hid hr' hm ?_
        intro hdue st hst
        exact hquiet hnext id hst.1 c hdue
    · intro c l' hl' r hr
      by_cases hc : c = call
      · subst hc
        cases (Function.update_self ..).symm.trans hl'
        rw [List.mem_append] at hr
        obtain hr | hr := hr
        · exact hcalled r hr
        · simp [HookState.calledNow] at hr
      · exact hlive.called c l' ((Function.update_of_ne hc ..).symm.trans
          hl') r hr
  | some next =>
    obtain ⟨id, rest⟩ := next
    obtain ⟨⟨pre, rfl⟩, r, hr, hm⟩ := HookBus.nextHandler_eq_some hnext
    refine ⟨?_, ?_⟩
    · intro c i hdue q hq
      obtain ⟨d, q', hd, hi, hq', hmq⟩ := hdue
      cases hq.symm.trans hq'
      by_cases hc : c = call
      · subst hc
        rw [Dict.get?_insert_self] at hd
        cases hd
        exact hids i (List.mem_append_right _ (List.mem_cons_of_mem _ hi))
          q hq hmq
      · rw [Dict.get?_insert_of_ne _ _ hc] at hd
        exact hlive.due c i ⟨d, q, hd, hi, hq, hmq⟩ q hq
    · intro c l' hl' q hq
      by_cases hc : c = call
      · subst hc
        cases (Function.update_self ..).symm.trans hl'
        rw [List.mem_append] at hq
        obtain hq | hq := hq
        · exact hcalled q hq
        · have hnow : q = r := by
            simpa [HookState.calledNow, hr] using hq
          rw [hnow]
          exact hids id (List.mem_append_right _ List.mem_cons_self) r hr
            hm
      · exact hlive.called c l' ((Function.update_of_ne hc ..).symm.trans
          hl') q hq

theorem WatchedHooks.Live.erase (hlive : w.Live) (call : Nat) :
    WatchedHooks.Live { w with hooks := { w.hooks with
      dispatches := w.hooks.dispatches.erase call } } := by
  refine ⟨?_, hlive.called⟩
  intro c id hdue r hr
  obtain ⟨d, q, hd, hid, hq, hm⟩ := hdue
  rw [Dict.get?_erase] at hd
  by_cases hc : c = call
  · rw [if_pos hc] at hd
    cases hd
  · rw [if_neg hc] at hd
    exact hlive.due c id ⟨d, q, hd, hid, hq, hm⟩ r hr

theorem live_step (h : w.Follows) (hlive : w.Live)
    (hstep : watchedStep w a = some w') (hok : w.hooks.Undisturbed a) :
    w'.Live := by
  obtain ⟨bus', rfl, hlaw, hev, -⟩
    | ⟨call, sid, payload, context, rfl, -, rfl⟩
    | ⟨call, d, outcome, rfl, hd, rfl⟩ := watchedStep_cases h.lawful hstep
  · refine hlive.of_bus h hev fun call id hdue st hmoves => ?_
    exact hok id (Or.inl hmoves.1) call hdue
  · obtain ⟨hlaw, hev⟩ := HookBus.materializeSession_spec h.lawful sid
    have hloc := h.located.materializeSession h.lawful sid
    have hmid := h.of_bus hlaw hloc hev
    have hlivemid := hlive.of_bus h hev fun _ _ _ _ hf => hf
    have hcalled : ∀ r ∈ DispatchLog.called
        { sessionId := sid, payload := payload, context := context
          selected := (w.hooks.bus.materializeSession sid).activeRecords sid
            payload context }, r.active = true := by
      intro r hr
      cases hr
    have hquiet : ∀ id ∈ ([] : List Nat), ∀ c,
        ¬ HookState.Due { w.hooks with
          bus := w.hooks.bus.materializeSession sid } c id := by
      intro id hid
      cases hid
    refine hlivemid.proceed hmid hcalled ?_ fun _ => hquiet
    intro id hid r hr _
    obtain ⟨q, hq, rfl⟩ := List.mem_map.1 hid
    obtain ⟨⟨i, -, hi⟩, hselected⟩ := HookState.mem_activeRecords.1 hq
    have hkey := (hlaw.keyed i q hi).1
    rw [hkey] at hr
    cases hi.symm.trans hr
    unfold RegistrationRecord.selected at hselected
    simp only [Bool.and_eq_true] at hselected
    exact hselected.1.1.1
  · obtain ⟨l, hl, hahead⟩ := h.ahead call d hd
    rw [HookState.handlerEnds_eq, logged_handlerEnds hl]
    by_cases hcancel : outcome = .cancelled
    · simp only [if_pos hcancel]
      rw [logged_cancelled hl]
      exact hlive.erase call
    · simp only [if_neg hcancel]
      refine hlive.proceed h (hlive.called call l hl) ?_ ?_
      · intro id hid r hr hm
        exact hlive.due call id ⟨d, r, hd, hid, hr, hm⟩ r hr
      · intro hnone id hid c hdue
        exact hok id (Or.inr ⟨call, d, outcome, rfl, hd, hcancel, hnone,
          hid⟩) c hdue

-- ================ runs

structure DispatchLog.Isolated (l : DispatchLog) : Prop where
  session : ∀ r ∈ l.called, r.sessionId = some l.sessionId
  phase : ∀ r ∈ l.called, r.phase = l.payload.phase
  turn : ∀ r ∈ l.called, r.scope.lifetime = .turn →
    r.turnId = effectiveTurnId l.payload l.context
  visible : ∀ r ∈ l.called, l.context.childExecution = true →
    r.scope.inheritToChildren = true ∨ ∃ turn,
      r.activationTurnId = some turn
        ∧ effectiveTurnId l.payload l.context = some turn
  ordered : l.called.Pairwise fun a b => a.precedence < b.precedence
  distinct : (l.called.map (·.registrationId)).Nodup

theorem DispatchLog.Fair.isolated (h : l.Fair) : l.Isolated := by
  have hback : ∀ r ∈ l.called, ∃ q ∈ l.selected, q.fixed = r.fixed := by
    intro r hr
    obtain ⟨q, hq, heq⟩ := List.mem_map.1
      (h.called.subset (List.mem_map_of_mem hr))
    exact ⟨q, hq, heq⟩
  have hselected : ∀ r ∈ l.called, r.sessionId = some l.sessionId
      ∧ r.phase = l.payload.phase
      ∧ r.turnScopeMatches (effectiveTurnId l.payload l.context) = true
      ∧ r.visibilityMatches (effectiveTurnId l.payload l.context)
          l.context = true := by
    intro r hr
    obtain ⟨q, hq, heq⟩ := hback r hr
    obtain ⟨hsession, hchosen⟩ := h.chosen q hq
    simp only [RegistrationRecord.selected, Bool.and_eq_true,
      decide_eq_true_eq] at hchosen
    obtain ⟨⟨⟨-, hphase⟩, hturn⟩, hvisible⟩ := hchosen
    -- the tests look at no field that moves
    have hsame : ∀ {β : Type} (f : RegistrationRecord → β),
        (∀ p : RegistrationRecord, f p.fixed = f p) → f r = f q := by
      intro β f hf
      rw [← hf r, ← heq, hf q]
    refine ⟨?_, ?_, ?_, ?_⟩
    · exact (hsame (·.sessionId) fun _ => rfl).trans hsession
    · exact (hsame (·.phase) fun _ => rfl).trans hphase
    · exact (hsame (·.turnScopeMatches _) fun _ => rfl).trans hturn
    · exact (hsame (·.visibilityMatches _ _) fun _ => rfl).trans hvisible
  refine ⟨fun r hr => (hselected r hr).1, fun r hr => (hselected r hr).2.1,
    ?_, ?_, ?_, ?_⟩
  · intro r hr hscope
    have hturn := (hselected r hr).2.2.1
    unfold RegistrationRecord.turnScopeMatches at hturn
    rw [if_neg (not_not.2 hscope)] at hturn
    exact of_decide_eq_true hturn
  · intro r hr hchild
    have hvisible := (hselected r hr).2.2.2
    unfold RegistrationRecord.visibilityMatches at hvisible
    rw [hchild] at hvisible
    split at hvisible
    · next hf => cases hf
    · split at hvisible
      · next hinherit => exact Or.inl hinherit
      · simp only [Bool.and_eq_true, decide_eq_true_eq] at hvisible
        obtain ⟨turn, hturn⟩ := Option.isSome_iff_exists.1 hvisible.1
        exact Or.inr ⟨turn, hturn, hvisible.2 ▸ hturn⟩
  · have hordered : (l.selected.map (·.fixed)).Pairwise
        fun a b => a.precedence < b.precedence :=
      List.pairwise_map.2 h.ordered
    have hcalled : (l.called.map (·.fixed)).Pairwise
        fun a b => a.precedence < b.precedence :=
      hordered.sublist h.called
    exact (List.pairwise_map (f := RegistrationRecord.fixed)).1 hcalled
  · have hids : ∀ rs : List RegistrationRecord,
        (rs.map (·.fixed)).map (·.registrationId)
          = rs.map (·.registrationId) := by
      intro rs
      rw [List.map_map]
      rfl
    have hsub := h.called.map (·.registrationId)
    rw [hids, hids] at hsub
    exact h.distinct.sublist hsub

theorem invoked_proceed_logged {s : HookState} (hlaw : s.bus.Lawful)
    (call : Nat) (target : Option String) (onceToExpire ids : List Nat) :
    (s.proceed call target onceToExpire ids).invoked = s.invoked
      ∨ ∃ r, (s.proceed call target onceToExpire ids).calledNow call = [r]
        ∧ (s.proceed call target onceToExpire ids).bus.records.get?
            r.registrationId = some r
        ∧ (s.proceed call target onceToExpire ids).invoked
            = s.invoked ++ [r.registrationId] := by
  unfold HookState.proceed
  cases hnext : s.bus.nextHandler target ids with
  | none => exact Or.inl rfl
  | some next =>
    obtain ⟨id, rest⟩ := next
    obtain ⟨-, r, hr, -⟩ := HookBus.nextHandler_eq_some hnext
    have hkey := (hlaw.keyed id r hr).1
    refine Or.inr ⟨r, ?_, ?_, ?_⟩
    · simp [HookState.calledNow, hr]
    · rw [hkey]
      exact hr
    · rw [hkey]

/-- The call of a handler that the step made, if it made one, ends a log,
with the record as the bus has it. -/
def WatchedHooks.Logs (w w' : WatchedHooks) : Prop :=
  w'.hooks.invoked = w.hooks.invoked
    ∨ ∃ call l r, w'.log call = some l ∧ l.called.getLast? = some r
      ∧ w'.hooks.bus.records.get? r.registrationId = some r
      ∧ w'.hooks.invoked = w.hooks.invoked ++ [r.registrationId]

theorem logs_step (h : w.Follows) (hstep : watchedStep w a = some w') :
    w.Logs w' := by
  obtain ⟨bus', rfl, -⟩ | ⟨call, sid, payload, context, rfl, -, rfl⟩
    | ⟨call, d, outcome, rfl, hd, rfl⟩ := watchedStep_cases h.lawful hstep
  · exact Or.inl rfl
  · have hlaw := (HookBus.materializeSession_spec h.lawful sid).1
    obtain hsame | ⟨r, hnow, hr, hinvoked⟩ := invoked_proceed_logged
      (s := { w.hooks with bus := w.hooks.bus.materializeSession sid }) hlaw
      call payload.matchTarget []
      (((w.hooks.bus.materializeSession sid).activeRecords sid payload
        context).map RegistrationRecord.registrationId)
    · exact Or.inl hsame
    · refine Or.inr ⟨call, _, r, Function.update_self .., ?_, hr, hinvoked⟩
      exact congrArg List.getLast? hnow
  · obtain ⟨l, hl, -⟩ := h.ahead call d hd
    rw [HookState.handlerEnds_eq, logged_handlerEnds hl]
    by_cases hcancel : outcome = .cancelled
    · simp only [if_pos hcancel]
      exact Or.inl rfl
    · simp only [if_neg hcancel]
      obtain hsame | ⟨r, hnow, hr, hinvoked⟩ := invoked_proceed_logged
        h.lawful call d.target (w.hooks.afterHandler d outcome) d.ahead
      · exact Or.inl hsame
      · refine Or.inr ⟨call, _, r, Function.update_self .., ?_, hr,
          hinvoked⟩
        dsimp only
        rw [hnow, List.getLast?_append]
        rfl

theorem follows_of_visits {as : List HookAction}
    (h : watchedSystem.Visits {} as w) : w.Follows :=
  System.invariant_of_takes (M := watchedSystem) (I := WatchedHooks.Follows)
    (G := fun _ _ => True) (fun _ _ _ hu hstep _ => follows_step hu hstep)
    follows_init (fun _ _ _ _ => trivial) h

/-- **Scopes.** Every handler a dispatch calls is of its session, phase and
turn and visible to it, in order and once; and it is ACTIVE, on a bus where
nothing that is due is taken out of use. -/
theorem hook_scopes_isolated (as : List HookAction) :
    (∀ w a w', watchedSystem.Takes {} as w a w' → w.Logs w')
      ∧ (∀ w, watchedSystem.Visits {} as w →
        ∀ call l, w.log call = some l → l.Isolated)
      ∧ ((∀ w a w', watchedSystem.Takes {} as w a w' →
          w.hooks.Undisturbed a) →
        ∀ w, watchedSystem.Visits {} as w →
          ∀ call l, w.log call = some l → ∀ r ∈ l.called,
            r.active = true) := by
  refine ⟨?_, ?_, ?_⟩
  · intro w a w' htake
    have hfollows := follows_of_visits htake.visits.1
    obtain ⟨p, q, -, -, hstep⟩ := htake
    exact logs_step hfollows hstep
  · intro w hw call l hl
    exact ((follows_of_visits hw).fair call l hl).isolated
  · intro hok w hw
    have hinv := System.invariant_of_takes (M := watchedSystem)
      (I := fun u => u.Follows ∧ u.Live)
      (fun u a u' hu hstep hG =>
        ⟨follows_step hu.1 hstep, live_step hu.1 hu.2 hstep hG⟩)
      ⟨follows_init, live_init⟩ hok hw
    exact hinv.2.called

section FixedRuns

theorem released_hook_called : ∃ w, watchedSystem.Visits {}
    (releasedWhileDue ++ [.handlerEnds 0 .returned]) w ∧ ∃ l r,
      w.log 0 = some l ∧ r ∈ l.called
        ∧ r.activationState = .released := by
  exact ⟨_, System.Visits.finish rfl, _, _, rfl,
    List.mem_of_getLast? rfl, rfl⟩

theorem undisturbed_of_orderly {s : HookState} {a : HookAction}
    (h : s.Orderly a) (hends : ∀ call outcome,
      a ≠ .handlerEnds call outcome) : s.Undisturbed a := by
  intro id hout call hdue
  obtain hreleases | ⟨c, d, outcome, heq, -⟩ := hout
  · exact h.1 id hreleases call hdue
  · exact hends c outcome heq

theorem undisturbed_alone {s : HookState} {call : Nat} {d : DispatchCall}
    (hone : s.dispatches = Dict.empty.insert call d) (hlast : d.ahead = [])
    (outcome : HandlerOutcome) :
    s.Undisturbed (.handlerEnds call outcome) := by
  intro id _ c hdue
  obtain ⟨e, r, he, hid, -⟩ := hdue
  rw [hone] at he
  by_cases hc : c = call
  · subst hc
    rw [Dict.get?_insert_self] at he
    cases he
    rw [hlast] at hid
    cases hid
  · rw [Dict.get?_insert_of_ne _ _ hc, Dict.get?_empty] at he
    cases he

theorem undisturbed_inTurn (w : WatchedHooks) (a : HookAction)
    (w' : WatchedHooks) (h : watchedSystem.Takes {} inTurn w a w') :
    w.hooks.Undisturbed a := by
  obtain ⟨rfl, rfl, -⟩ | h := (System.takes_cons rfl).1 h
  · refine undisturbed_of_orderly (orderly_register ..) ?_
    intro call outcome heq
    cases heq
  obtain ⟨rfl, rfl, -⟩ | h := (System.takes_cons rfl).1 h
  · refine undisturbed_of_orderly (orderly_dispatch rfl fun r _ => ?_) ?_
    · exact List.not_mem_nil
    · intro call outcome heq
      cases heq
  obtain ⟨rfl, rfl, -⟩ | h := (System.takes_cons rfl).1 h
  · exact undisturbed_alone rfl rfl _
  obtain ⟨rfl, rfl, -⟩ | h := (System.takes_cons rfl).1 h
  · refine undisturbed_of_orderly (orderly_dispatch rfl fun r hr => ?_) ?_
    · exact absurd hr List.not_mem_nil
    · intro call outcome heq
      cases heq
  · obtain ⟨p, q, heq, -⟩ := h
    cases p with
    | nil => cases heq
    | cons _ _ => cases heq

/-- A once hook is called ACTIVE by the first of two dispatches. -/
theorem hook_scopes_isolated_inTurn : ∃ w,
    watchedSystem.Visits {} inTurn w ∧ ∀ call l, w.log call = some l →
      ∀ r ∈ l.called, r.active = true :=
  ⟨_, System.Visits.finish rfl,
    (hook_scopes_isolated inTurn).2.2 undisturbed_inTurn _
      (System.Visits.finish rfl)⟩

end FixedRuns

end WeaveRuntime.Hooks
