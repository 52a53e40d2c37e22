/-
What every run of the bus keeps, whatever the order of its steps.

The bus stays lawful, a suspended dispatch waits for a handler that has
been called, and what it will expire are once hooks that it has called
(`Tracked`).
-/
import WeaveRuntime.Hooks.Evolution

namespace WeaveRuntime.Hooks

open Lib

namespace HookState

/-- A registration with `once` set. -/
def Once (s : HookState) (id : Nat) : Prop :=
  ∃ r, s.bus.records.get? id = some r ∧ r.once = true

structure Tracked (s : HookState) : Prop where
  lawful : s.bus.Lawful
  running : ∀ call d, s.dispatches.get? call = some d →
    d.running ∈ s.invoked
  expiring : ∀ call d, s.dispatches.get? call = some d →
    ∀ id ∈ d.onceToExpire, s.Once id ∧ id ∈ s.invoked

theorem tracked_init : Tracked {} := by
  refine ⟨⟨?_, ?_, fun _ => List.nodup_nil⟩, ?_, ?_⟩
  · intro id r hr
    cases hr
  · intro sid id hid
    cases hid
  · intro call d hd
    cases hd
  · intro call d hd
    cases hd

theorem Once.of_evolves {s : HookState}
    {hit : Nat → HookActivationState → Prop} {bus' : HookBus}
    (hev : s.bus.Evolves hit bus') {id : Nat} (h : s.Once id) :
    Once { s with bus := bus' } id := by
  obtain ⟨r, hr, ho⟩ := h
  obtain ⟨r', hr', hb⟩ := hev.kept id r hr
  exact ⟨r', hr', hb.once.trans ho⟩

theorem Tracked.of_bus {s : HookState} (h : s.Tracked) {bus' : HookBus}
    {hit : Nat → HookActivationState → Prop} (hlaw : bus'.Lawful)
    (hev : s.bus.Evolves hit bus') : Tracked { s with bus := bus' } := by
  refine ⟨hlaw, h.running, fun call d hd id hid => ?_⟩
  obtain ⟨ho, hmem⟩ := h.expiring call d hd id hid
  exact ⟨ho.of_evolves hev, hmem⟩

theorem Tracked.erase {s : HookState} (h : s.Tracked) (call : Nat) :
    Tracked { s with dispatches := s.dispatches.erase call } := by
  have hget : ∀ c d, (s.dispatches.erase call).get? c = some d →
      s.dispatches.get? c = some d := by
    intro c d hd
    rw [Dict.get?_erase] at hd
    by_cases hc : c = call
    · rw [if_pos hc] at hd
      cases hd
    · rwa [if_neg hc] at hd
  exact ⟨h.lawful, fun c d hd => h.running c d (hget c d hd),
    fun c d hd => h.expiring c d (hget c d hd)⟩

theorem expire_spec {bus : HookBus} (h : bus.Lawful) (ids : List Nat) :
    (HookBus.deactivate (fun _ => true) .expired { bus with
        dispatchCounter := bus.dispatchCounter + 1 } ids).Lawful
      ∧ bus.Evolves (fun id st => id ∈ ids ∧ st = .expired)
          (HookBus.deactivate (fun _ => true) .expired { bus with
            dispatchCounter := bus.dispatchCounter + 1 } ids) := by
  have hlaw : HookBus.Lawful { bus with
      dispatchCounter := bus.dispatchCounter + 1 } :=
    ⟨h.keyed, h.listed, h.nodup⟩
  have hcounted : bus.Evolves (fun id st => id ∈ ids ∧ st = .expired)
      { bus with dispatchCounter := bus.dispatchCounter + 1 } :=
    HookBus.evolves_of_records (Nat.le_refl _) rfl
  obtain ⟨hlaw', hev⟩ := HookBus.deactivate_spec hlaw (fun _ => true)
    .expired rfl ids
  exact ⟨hlaw', hcounted.trans (hev.mono fun _ _ hi => ⟨hi.1.1, hi.2⟩)⟩

theorem Tracked.proceed {s : HookState} (h : s.Tracked) (call : Nat)
    (target : Option String) {onceToExpire : List Nat} (ids : List Nat)
    (hexp : ∀ id ∈ onceToExpire, s.Once id ∧ id ∈ s.invoked) :
    (s.proceed call target onceToExpire ids).Tracked := by
  unfold HookState.proceed
  cases s.bus.nextHandler target ids with
  | none =>
    obtain ⟨hlaw, hev⟩ := expire_spec h.lawful onceToExpire
    exact (h.erase call).of_bus hlaw hev
  | some next =>
    refine ⟨h.lawful, fun c d hd => ?_, fun c d hd id hid => ?_⟩
    · by_cases hc : c = call
      · subst hc
        rw [Dict.get?_insert_self] at hd
        cases hd
        exact List.mem_append_right _ (List.mem_singleton_self _)
      · rw [Dict.get?_insert_of_ne _ _ hc] at hd
        exact List.mem_append_left _ (h.running c d hd)
    · by_cases hc : c = call
      · subst hc
        rw [Dict.get?_insert_self] at hd
        cases hd
        exact ⟨(hexp id hid).1, List.mem_append_left _ (hexp id hid).2⟩
      · rw [Dict.get?_insert_of_ne _ _ hc] at hd
        have := h.expiring c d hd id hid
        exact ⟨this.1, List.mem_append_left _ this.2⟩

def afterHandler (s : HookState) (d : DispatchCall)
    (outcome : HandlerOutcome) : List Nat :=
  match outcome with
  | .returned =>
    if ((s.bus.records.get? d.running).map
        RegistrationRecord.once).getD false then
      d.onceToExpire ++ [d.running]
    else d.onceToExpire
  | _ => d.onceToExpire

theorem Tracked.expires {s : HookState} (h : s.Tracked) {call : Nat}
    {d : DispatchCall} (hd : s.dispatches.get? call = some d)
    (outcome : HandlerOutcome) :
    ∀ id ∈ s.afterHandler d outcome, s.Once id ∧ id ∈ s.invoked := by
  intro id hid
  cases outcome with
  | returned =>
    cases hr : s.bus.records.get? d.running with
    | none =>
      simp only [afterHandler, hr, Option.map_none, Option.getD_none,
        Bool.false_eq_true, if_false] at hid
      exact h.expiring call d hd id hid
    | some r =>
      cases ho : r.once with
      | false =>
        simp only [afterHandler, hr, Option.map_some,
          Option.getD_some, ho, Bool.false_eq_true, if_false] at hid
        exact h.expiring call d hd id hid
      | true =>
        simp only [afterHandler, hr, Option.map_some,
          Option.getD_some, ho, if_true, List.mem_append,
          List.mem_singleton] at hid
        rcases hid with hid | rfl
        · exact h.expiring call d hd id hid
        · exact ⟨⟨r, hr, ho⟩, h.running call d hd⟩
  | _ => exact h.expiring call d hd id hid

theorem handlerEnds_eq (s : HookState) (call : Nat) (d : DispatchCall)
    (outcome : HandlerOutcome) :
    s.handlerEnds call d outcome
      = if outcome = .cancelled then
          { s with dispatches := s.dispatches.erase call }
        else s.proceed call d.target (s.afterHandler d outcome) d.ahead := by
  cases outcome <;> rfl

theorem tracked_step {s s' : HookState} {a : HookAction} (h : s.Tracked)
    (hstep : hookStep s a = some s') : s'.Tracked := by
  rcases hookStep_cases h.lawful hstep with ⟨bus', rfl, hlaw, hev⟩
    | ⟨call, sid, payload, context, rfl, -, rfl⟩
    | ⟨call, d, outcome, rfl, hd, rfl⟩
  · exact h.of_bus hlaw hev
  · obtain ⟨hlaw, hev⟩ := HookBus.materializeSession_spec h.lawful sid
    exact (h.of_bus hlaw hev).proceed _ _ _ nofun
  · rw [handlerEnds_eq]
    by_cases hcancel : outcome = .cancelled
    · rw [if_pos hcancel]
      exact h.erase call
    · rw [if_neg hcancel]
      exact h.proceed _ _ _ (h.expires hd outcome)

end HookState

end WeaveRuntime.Hooks
