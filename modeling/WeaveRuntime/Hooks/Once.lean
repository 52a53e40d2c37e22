/-
Once hooks, and hooks that have been released.

A dispatch holds the registrations it has selected and not yet come to
(`Due`). Nothing looks at their state again: what is released while it is
due is still called, and a once hook that two dispatches select is called
by both, since it expires only when a dispatch that ran it ends.

Both go wrong where something happens to a registration that is due, or
where a once hook is selected that has been called and did not expire.
Without these (`Orderly`) the invariant `Settled` carries the result:
what is due is ACTIVE, and a once hook is due or called, once in all.
-/
import WeaveRuntime.Hooks.Calls

namespace WeaveRuntime.Hooks

open Lib

namespace HookState

/-- The dispatch `call` has selected the registration and will come to
it. -/
def Due (s : HookState) (call id : Nat) : Prop :=
  ∃ d r, s.dispatches.get? call = some d ∧ id ∈ d.ahead
    ∧ s.bus.records.get? id = some r
    ∧ matcherMatches r.matcher d.target = true

/-- The condition on a step: it takes nothing out of use that is due, and
a dispatch that begins selects no once hook that is due elsewhere or has
been called before. -/
def Orderly (s : HookState) (a : HookAction) : Prop :=
  (∀ id, s.bus.Releases id a → ∀ call, ¬ s.Due call id)
    ∧ ∀ call sessionId payload context,
      a = .dispatch call sessionId payload context →
      ∀ r ∈ (s.bus.materializeSession sessionId).activeRecords sessionId
          payload context,
        matcherMatches r.matcher payload.matchTarget = true →
        r.once = true →
        r.registrationId ∉ s.invoked
          ∧ ∀ other, ¬ s.Due other r.registrationId

-- =========== invariant

/-- What an orderly run keeps. -/
structure Settled (s : HookState) : Prop where
  known : ∀ id ∈ s.invoked, id ≤ s.bus.creationCounter
  ahead : ∀ call d, s.dispatches.get? call = some d →
    d.ahead.Nodup ∧ ∀ id ∈ d.ahead, id ≤ s.bus.creationCounter
  active : ∀ call id, s.Due call id →
    ∃ r, s.bus.records.get? id = some r ∧ r.activationState = .active
  uncalled : ∀ call id, s.Due call id → s.Once id → id ∉ s.invoked
  unique : ∀ call call' id, s.Due call id → s.Due call' id → s.Once id →
    call = call'
  once : ∀ id, s.Once id → s.invoked.count id ≤ 1

theorem settled_init : Settled {} := by
  have hnone : ∀ (call id : Nat), ¬ Due {} call id := by
    intro call id h
    obtain ⟨d, -, hd, -⟩ := h
    cases hd
  refine ⟨?_, ?_, ?_, ?_, ?_, ?_⟩
  · intro id hid
    cases hid
  · intro call d hd
    cases hd
  · intro call id h
    exact absurd h (hnone call id)
  · intro call id h
    exact absurd h (hnone call id)
  · intro call call' id h
    exact absurd h (hnone call id)
  · intro id h
    exact Nat.zero_le _

-- ==== moves of the parts

variable {call : Nat} {onceToExpire : List Nat} {s : HookState}
  {target : Option String}

theorem Settled.of_bus (h : s.Settled) {bus' : HookBus}
    {hit : Nat → HookActivationState → Prop} (hev : s.bus.Evolves hit bus')
    (hdue : ∀ call id, s.Due call id → ∀ st, ¬ hit id st) :
    Settled { s with bus := bus' } := by
  have hback : ∀ call id, Due { s with bus := bus' } call id →
      s.Due call id := by
    intro call id hd
    obtain ⟨d, r', hd, hid, hr', hm⟩ := hd
    cases hr : s.bus.records.get? id with
    | none =>
      have hfresh := hev.fresh id r' hr hr'
      have := (h.ahead call d hd).2 id hid
      omega
    | some r =>
      obtain ⟨q, hq, hb⟩ := hev.kept id r hr
      rw [show bus'.records.get? id = some r' from hr'] at hq
      cases hq
      exact ⟨d, r, hd, hid, hr, hb.matcher ▸ hm⟩
  have honce : ∀ id, id ≤ s.bus.creationCounter →
      Once { s with bus := bus' } id → s.Once id := by
    intro id hle ho
    obtain ⟨r', hr', ho⟩ := ho
    cases hr : s.bus.records.get? id with
    | none =>
      have := hev.fresh id r' hr hr'
      omega
    | some r =>
      obtain ⟨q, hq, hb⟩ := hev.kept id r hr
      rw [show bus'.records.get? id = some r' from hr'] at hq
      cases hq
      exact ⟨r, hr, hb.once ▸ ho⟩
  have hle : ∀ call id, s.Due call id → id ≤ s.bus.creationCounter := by
    intro call id hd
    obtain ⟨d, r, hd, hid, -⟩ := hd
    exact (h.ahead call d hd).2 id hid
  have hcount := hev.counter
  refine ⟨?_, ?_, ?_, ?_, ?_, ?_⟩
  · intro id hid
    exact Nat.le_trans (h.known id hid) hcount
  · intro call d hd
    refine ⟨(h.ahead call d hd).1, fun id hid => ?_⟩
    exact Nat.le_trans ((h.ahead call d hd).2 id hid) hcount
  · intro call id hd
    have hd := hback call id hd
    obtain ⟨r, hr, hactive⟩ := h.active call id hd
    obtain ⟨r', hr', hb⟩ := hev.kept id r hr
    exact ⟨r', hr', hb.active_stays (hdue call id hd) hactive⟩
  · intro call id hd ho
    have hd := hback call id hd
    exact h.uncalled call id hd (honce id (hle call id hd) ho)
  · intro call call' id hd hd' ho
    have hd := hback call id hd
    exact h.unique call call' id hd (hback call' id hd')
      (honce id (hle call id hd) ho)
  · intro id ho
    by_cases hmem : id ∈ s.invoked
    · exact h.once id (honce id (h.known id hmem) ho)
    · rw [List.count_eq_zero_of_not_mem hmem]
      exact Nat.zero_le _

theorem Settled.erase (h : s.Settled) (call : Nat) :
    Settled { s with dispatches := s.dispatches.erase call } := by
  have hget : ∀ c d, (s.dispatches.erase call).get? c = some d →
      s.dispatches.get? c = some d := by
    intro c d hd
    rw [Dict.get?_erase] at hd
    by_cases hc : c = call
    · rw [if_pos hc] at hd
      cases hd
    · rwa [if_neg hc] at hd
  have hback : ∀ c id, Due { s with
      dispatches := s.dispatches.erase call } c id → s.Due c id := by
    intro c id hd
    obtain ⟨d, r, hd, hrest⟩ := hd
    exact ⟨d, r, hget c d hd, hrest⟩
  exact ⟨h.known, fun c d hd => h.ahead c d (hget c d hd),
    fun c id hd => h.active c id (hback c id hd),
    fun c id hd => h.uncalled c id (hback c id hd),
    fun c c' id hd hd' => h.unique c c' id (hback c id hd) (hback c' id hd'),
    h.once⟩

/-- A dispatch as it stands before it goes on with `ids`. -/
def hold (s : HookState) (call running : Nat) (target : Option String)
    (onceToExpire ids : List Nat) : HookState :=
  { s with
    dispatches := s.dispatches.insert call
      ⟨target, running, ids, onceToExpire⟩ }

theorem Settled.proceed {running : Nat} {ids : List Nat}
    (h : (s.hold call running target onceToExpire ids).Settled)
    (hlaw : s.bus.Lawful)
    (hexp : ∀ id ∈ onceToExpire, s.Once id ∧ id ∈ s.invoked) :
    (s.proceed call target onceToExpire ids).Settled := by
  have hself : (s.hold call running target onceToExpire ids).dispatches.get?
      call = some ⟨target, running, ids, onceToExpire⟩ :=
    Dict.get?_insert_self ..
  unfold HookState.proceed
  cases hnext : s.bus.nextHandler target ids with
  | none =>
    -- what expires has been called, so it is due nowhere
    have herased := h.erase call
    simp only [hold, Dict.erase_insert] at herased
    refine herased.of_bus (expire_spec hlaw onceToExpire).2 ?_
    intro c id hd st hhit
    obtain ⟨honce, hmem⟩ := hexp id hhit.1
    exact herased.uncalled c id hd honce hmem
  | some next =>
    obtain ⟨id, rest⟩ := next
    obtain ⟨⟨pre, rfl⟩, r, hr, hm⟩ := HookBus.nextHandler_eq_some hnext
    obtain ⟨hnodup, hle⟩ := h.ahead call _ hself
    have hnodup' := List.nodup_append.1 hnodup
    have hdue : (s.hold call running target onceToExpire
        (pre ++ id :: rest)).Due call id :=
      ⟨_, r, hself, List.mem_append_right _ List.mem_cons_self, hr, hm⟩
    -- what is due afterwards was due before, and is not the one called
    have hback : ∀ c i, Due { s with
        dispatches := s.dispatches.insert call
          ⟨target, id, rest, onceToExpire⟩
        invoked := s.invoked ++ [id] } c i →
        (s.hold call running target onceToExpire
          (pre ++ id :: rest)).Due c i ∧ (c = call → i ≠ id) := by
      intro c i hd
      obtain ⟨d, q, hd, hi, hq, hmq⟩ := hd
      by_cases hc : c = call
      · subst hc
        rw [Dict.get?_insert_self] at hd
        cases hd
        refine ⟨⟨_, q, hself, List.mem_append_right _
          (List.mem_cons_of_mem _ hi), hq, hmq⟩, fun _ hii => ?_⟩
        have := List.nodup_cons.1 hnodup'.2.1
        exact this.1 (hii ▸ hi)
      · rw [Dict.get?_insert_of_ne _ _ hc] at hd
        refine ⟨⟨d, q, ?_, hi, hq, hmq⟩, fun hcc => absurd hcc hc⟩
        exact (Dict.get?_insert_of_ne _ _ hc).trans hd
    refine ⟨?_, ?_, ?_, ?_, ?_, ?_⟩
    · intro i hi
      rw [List.mem_append, List.mem_singleton] at hi
      rcases hi with hi | rfl
      · exact h.known i hi
      · exact hle i (List.mem_append_right _ List.mem_cons_self)
    · intro c d hd
      by_cases hc : c = call
      · subst hc
        rw [Dict.get?_insert_self] at hd
        cases hd
        refine ⟨(List.nodup_cons.1 hnodup'.2.1).2, fun i hi => ?_⟩
        exact hle i (List.mem_append_right _ (List.mem_cons_of_mem _ hi))
      · refine h.ahead c d ?_
        rw [Dict.get?_insert_of_ne _ _ hc] at hd
        exact (Dict.get?_insert_of_ne _ _ hc).trans hd
    · intro c i hd
      exact h.active c i (hback c i hd).1
    · intro c i hd ho hmem
      obtain ⟨hd, hne⟩ := hback c i hd
      rw [List.mem_append, List.mem_singleton] at hmem
      rcases hmem with hmem | rfl
      · exact h.uncalled c i hd ho hmem
      · exact hne (h.unique c call i hd hdue ho) rfl
    · intro c c' i hd hd' ho
      exact h.unique c c' i (hback c i hd).1 (hback c' i hd').1 ho
    · intro i ho
      rw [List.count_append]
      by_cases hi : i = id
      · subst hi
        have huncalled : i ∉ s.invoked := h.uncalled call i hdue ho
        rw [List.count_eq_zero_of_not_mem huncalled]
        simp
      · rw [List.count_eq_zero_of_not_mem (l := [id]) (by simpa using hi)]
        exact h.once i ho

-- =============== steps

theorem mem_activeRecords {bus : HookBus} {sessionId : String}
    {payload : HookPayload} {context : DispatchContext}
    {r : RegistrationRecord} :
    r ∈ bus.activeRecords sessionId payload context
      ↔ (∃ id ∈ bus.order sessionId, bus.records.get? id = some r)
        ∧ r.selected payload context = true := by
  unfold HookBus.activeRecords
  rw [List.mem_insertionSort, List.mem_filter, List.mem_filterMap]

theorem nodup_activeRecords {bus : HookBus} (h : bus.Lawful)
    (sessionId : String) (payload : HookPayload) (context : DispatchContext) :
    ((bus.activeRecords sessionId payload context).map
      RegistrationRecord.registrationId).Nodup := by
  have hids : ((bus.order sessionId).filterMap bus.records.get?).map
      RegistrationRecord.registrationId
        = (bus.order sessionId).filter fun id =>
            (bus.records.get? id).isSome := by
    induction bus.order sessionId with
    | nil => rfl
    | cons id ids ih =>
      cases hr : bus.records.get? id with
      | none => simp [hr, ih]
      | some r => simp [hr, ih, (h.keyed id r hr).1]
  have hbase : (((bus.order sessionId).filterMap bus.records.get?).map
      RegistrationRecord.registrationId).Nodup := by
    rw [hids]
    exact (h.nodup sessionId).filter _
  unfold HookBus.activeRecords
  refine (((List.perm_insertionSort _ _).map _).nodup_iff).2 ?_
  exact hbase.sublist (List.filter_sublist.map _)

theorem Settled.select (h : s.Settled) (hbus : s.bus.Lawful)
    (hfree : s.dispatches.get? call = none) {sessionId : String}
    {payload : HookPayload} {context : DispatchContext}
    (hok : s.Orderly (.dispatch call sessionId payload context)) :
    (HookState.hold { s with bus := s.bus.materializeSession sessionId }
      call 0 payload.matchTarget []
      (((s.bus.materializeSession sessionId).activeRecords sessionId payload
        context).map RegistrationRecord.registrationId)).Settled := by
  obtain ⟨hlaw, hev⟩ := HookBus.materializeSession_spec hbus sessionId
  have hm := h.of_bus hev fun _ _ _ _ hf => hf
  generalize hb : s.bus.materializeSession sessionId = bus at *
  have hsel : ∀ id ∈ (bus.activeRecords sessionId payload context).map
      RegistrationRecord.registrationId, ∃ r,
      r ∈ bus.activeRecords sessionId payload context
        ∧ bus.records.get? id = some r ∧ r.registrationId = id
        ∧ r.activationState = .active := by
    intro id hid
    obtain ⟨r, hr, rfl⟩ := List.mem_map.1 hid
    obtain ⟨⟨i, -, hi⟩, hs⟩ := mem_activeRecords.1 hr
    have hkey := (hlaw.keyed i r hi).1
    unfold RegistrationRecord.selected at hs
    simp only [Bool.and_eq_true] at hs
    exact ⟨r, hr, hkey.symm ▸ hi, rfl, active_iff.1 hs.1.1.1⟩
  -- what is due in the dispatch is selected, and due elsewhere as before
  have hnew : ∀ d, (s.dispatches.insert call ⟨payload.matchTarget, 0,
      (bus.activeRecords sessionId payload context).map
        RegistrationRecord.registrationId, []⟩).get? call = some d →
      d = ⟨payload.matchTarget, 0,
        (bus.activeRecords sessionId payload context).map
          RegistrationRecord.registrationId, []⟩ := by
    intro d hd
    rw [Dict.get?_insert_self] at hd
    exact (Option.some.inj hd).symm
  have hold : ∀ c i, c ≠ call → (HookState.hold { s with bus := bus } call 0
      payload.matchTarget [] ((bus.activeRecords sessionId payload
        context).map RegistrationRecord.registrationId)).Due c i →
      Due { s with bus := bus } c i := by
    intro c i hc hd
    obtain ⟨d, r, hd, hrest⟩ := hd
    exact ⟨d, r, (Dict.get?_insert_of_ne _ _ hc).symm.trans hd, hrest⟩
  -- a once hook that is selected has not been called and is due nowhere
  have hfresh : ∀ i, (HookState.hold { s with bus := bus } call 0
      payload.matchTarget [] ((bus.activeRecords sessionId payload
        context).map RegistrationRecord.registrationId)).Due call i →
      Once { s with bus := bus } i →
      i ∉ s.invoked ∧ ∀ other, ¬ Due { s with bus := bus } other i := by
    intro i hd ho
    obtain ⟨d, r, hd, hi, hr, hmatch⟩ := hd
    cases hnew d hd
    obtain ⟨q, hq, hqr, rfl, -⟩ := hsel i hi
    obtain ⟨r', hr', ho⟩ := ho
    obtain rfl : q = r := Option.some.inj (hqr.symm.trans hr)
    obtain rfl : q = r' := Option.some.inj (hqr.symm.trans hr')
    have hfine := hok.2 call sessionId payload context rfl q
      (hb.symm ▸ hq) hmatch ho
    refine ⟨hfine.1, fun other hd => ?_⟩
    -- it was due before the templates were materialised
    obtain ⟨d, r, hd, hi, hr, hmatch⟩ := hd
    obtain rfl : q = r := Option.some.inj (hqr.symm.trans hr)
    cases hs : s.bus.records.get? q.registrationId with
    | none =>
      have := hev.fresh _ q hs hqr
      have := (h.ahead other d hd).2 _ hi
      omega
    | some p =>
      obtain ⟨p', hp', hbec⟩ := hev.kept _ p hs
      obtain rfl : q = p' := Option.some.inj (hqr.symm.trans hp')
      exact hfine.2 other ⟨d, p, hd, hi, hs, hbec.matcher ▸ hmatch⟩
  refine ⟨hm.known, ?_, ?_, ?_, ?_, hm.once⟩
  · intro c d hd
    by_cases hc : c = call
    · subst hc
      cases hnew d hd
      refine ⟨nodup_activeRecords hlaw sessionId payload context, ?_⟩
      intro id hid
      obtain ⟨r, -, hr, -⟩ := hsel id hid
      exact (hlaw.keyed id r hr).2
    · exact hm.ahead c d ((Dict.get?_insert_of_ne _ _ hc).symm.trans hd)
  · intro c id hd
    by_cases hc : c = call
    · subst hc
      obtain ⟨d, r, hd, hi, -⟩ := hd
      cases hnew d hd
      obtain ⟨q, -, hq, -, hactive⟩ := hsel id hi
      exact ⟨q, hq, hactive⟩
    · exact hm.active c id (hold c id hc hd)
  · intro c id hd ho
    by_cases hc : c = call
    · subst hc
      exact (hfresh id hd ho).1
    · exact hm.uncalled c id (hold c id hc hd) ho
  · intro c c' id hd hd' ho
    by_cases hc : c = call
    · subst hc
      by_cases hc' : c' = c
      · exact hc'.symm
      · exact absurd (hold c' id hc' hd') ((hfresh id hd ho).2 c')
    · by_cases hc' : c' = call
      · subst hc'
        exact absurd (hold c id hc hd) ((hfresh id hd' ho).2 c)
      · exact hm.unique c c' id (hold c id hc hd) (hold c' id hc' hd') ho

theorem Settled.resume (h : s.Settled) {d : DispatchCall}
    (hd : s.dispatches.get? call = some d) (onceToExpire : List Nat) :
    (s.hold call d.running d.target onceToExpire d.ahead).Settled := by
  have hback : ∀ c e, (s.hold call d.running d.target onceToExpire
      d.ahead).dispatches.get? c = some e →
      ∃ e', s.dispatches.get? c = some e' ∧ e'.ahead = e.ahead
        ∧ e'.target = e.target := by
    intro c e he
    by_cases hcc : c = call
    · subst hcc
      rw [show (s.hold c d.running d.target onceToExpire
        d.ahead).dispatches.get? c = some _ from
          Dict.get?_insert_self ..] at he
      cases he
      exact ⟨d, hd, rfl, rfl⟩
    · exact ⟨e, (Dict.get?_insert_of_ne _ _ hcc).symm.trans he, rfl, rfl⟩
  have hdue : ∀ c id, (s.hold call d.running d.target onceToExpire
      d.ahead).Due c id → s.Due c id := by
    intro c id hdue
    obtain ⟨e, r, he, hid, hr, hm⟩ := hdue
    obtain ⟨e', he', hahead, htarget⟩ := hback c e he
    exact ⟨e', r, he', hahead ▸ hid, hr, htarget ▸ hm⟩
  refine ⟨h.known, ?_, fun c id he => h.active c id (hdue c id he),
    fun c id he => h.uncalled c id (hdue c id he),
    fun c c' id he he' => h.unique c c' id (hdue c id he) (hdue c' id he'),
    h.once⟩
  intro c e he
  obtain ⟨e', he', hahead, -⟩ := hback c e he
  exact hahead ▸ h.ahead c e' he'

theorem invoked_proceed (s : HookState) (call running : Nat)
    (target : Option String) (onceToExpire ids : List Nat) :
    (s.proceed call target onceToExpire ids).invoked = s.invoked
      ∨ ∃ id, (s.proceed call target onceToExpire ids).invoked
          = s.invoked ++ [id]
        ∧ (s.hold call running target onceToExpire ids).Due call id := by
  unfold HookState.proceed
  cases hnext : s.bus.nextHandler target ids with
  | none => exact Or.inl rfl
  | some next =>
    obtain ⟨id, rest⟩ := next
    obtain ⟨⟨pre, rfl⟩, r, hr, hm⟩ := HookBus.nextHandler_eq_some hnext
    exact Or.inr ⟨id, rfl, _, r, Dict.get?_insert_self ..,
      List.mem_append_right _ List.mem_cons_self, hr, hm⟩

/-- The registration is RELEASED or EXPIRED. -/
def Over (s : HookState) (id : Nat) : Prop :=
  ∃ r, s.bus.records.get? id = some r ∧ r.activationState.over = true

theorem over_proceed (h : s.bus.Lawful) {ids : List Nat} {id : Nat}
    (hover : s.Over id) :
    (s.proceed call target onceToExpire ids).Over id := by
  unfold HookState.proceed
  cases s.bus.nextHandler target ids with
  | some next => exact hover
  | none =>
    obtain ⟨r, hr, ho⟩ := hover
    obtain ⟨r', hr', hb⟩ := (expire_spec h onceToExpire).2.kept id r hr
    exact ⟨r', hr', hb.over_stays ho⟩

theorem Settled.quiet {running : Nat} {ids : List Nat}
    (h : (s.hold call running target onceToExpire ids).Settled) {id : Nat}
    (hover : s.Over id) :
    (s.proceed call target onceToExpire ids).invoked.count id
      = s.invoked.count id := by
  rcases s.invoked_proceed call running target onceToExpire ids with
    heq | ⟨i, heq, hdue⟩
  · rw [heq]
  · have hne : i ≠ id := by
      intro hi
      subst hi
      obtain ⟨r, hr, hactive⟩ := h.active call i hdue
      obtain ⟨q, hq, ho⟩ := hover
      cases hr.symm.trans hq
      rw [hactive] at ho
      cases ho
    rw [heq, List.count_append,
      List.count_eq_zero_of_not_mem (l := [i]) (by simpa using hne.symm)]
    rfl

theorem settled_step {s' : HookState} {a : HookAction} (ht : s.Tracked)
    (h : s.Settled) (hstep : hookStep s a = some s') (hok : s.Orderly a) :
    s'.Settled ∧ ∀ id, s.Over id → s'.Over id
      ∧ s'.invoked.count id = s.invoked.count id := by
  have hover : ∀ {hit : Nat → HookActivationState → Prop} {bus' : HookBus},
      s.bus.Evolves hit bus' → ∀ id, s.Over id → ∃ r, bus'.records.get? id = some r
        ∧ r.activationState.over = true := by
    intro hit bus' hev id ho
    obtain ⟨r, hr, ho⟩ := ho
    obtain ⟨r', hr', hb⟩ := hev.kept id r hr
    exact ⟨r', hr', hb.over_stays ho⟩
  rcases hookStep_cases ht.lawful hstep with ⟨bus', rfl, -, hev⟩
    | ⟨call, sid, payload, context, rfl, hfree, rfl⟩
    | ⟨call, d, outcome, rfl, hd, rfl⟩
  · refine ⟨h.of_bus hev fun call id hdue _ hhit =>
      hok.1 id hhit.1 call hdue,
      fun id ho => ⟨hover hev id ho, rfl⟩⟩
  · have hsel := h.select ht.lawful hfree hok
    obtain ⟨hlaw, hev⟩ := HookBus.materializeSession_spec ht.lawful sid
    refine ⟨hsel.proceed hlaw nofun, fun id ho => ?_⟩
    have hmid : Over { s with bus := s.bus.materializeSession sid } id :=
      hover hev id ho
    exact ⟨over_proceed (s := { s with
      bus := s.bus.materializeSession sid }) hlaw hmid, hsel.quiet hmid⟩
  · rw [handlerEnds_eq]
    by_cases hcancel : outcome = .cancelled
    · rw [if_pos hcancel]
      exact ⟨h.erase call, fun id ho => ⟨ho, rfl⟩⟩
    · rw [if_neg hcancel]
      have hheld := h.resume hd (s.afterHandler d outcome)
      exact ⟨hheld.proceed ht.lawful (ht.expires hd outcome),
        fun id ho => ⟨over_proceed ht.lawful ho, hheld.quiet ho⟩⟩

-- ================ runs

/-- **Once hooks.** On a bus whose steps are all orderly a once hook is
called at most once, and a hook that is released or expired is not called
again. -/
theorem once_hooks_fire_once {as : List HookAction}
    (hok : ∀ s a s', hookSystem.Takes {} as s a s' → s.Orderly a) :
    (∀ t, hookSystem.Visits {} as t → ∀ id, t.Once id →
        t.invoked.count id ≤ 1)
      ∧ ∀ u v, hookSystem.Passes {} as u v → ∀ id, u.Over id →
        v.invoked.count id = u.invoked.count id := by
  have hinv : ∀ t, hookSystem.Visits {} as t → t.Tracked ∧ t.Settled :=
    fun t ht => System.invariant_of_takes (M := hookSystem)
      (I := fun u => u.Tracked ∧ u.Settled)
      (fun u a u' hu hstep hG =>
        ⟨tracked_step hu.1 hstep, (settled_step hu.1 hu.2 hstep hG).1⟩)
      ⟨tracked_init, settled_init⟩ hok ht
  refine ⟨fun t ht id ho => (hinv t ht).2.once id ho, ?_⟩
  intro u v huv id hover
  have hpair : ∀ x y, hookSystem.Passes {} as x y → ∀ i, x.Over i →
      y.Over i ∧ y.invoked.count i = x.invoked.count i := by
    refine (System.passes_iff_takes (fun x i ho => ⟨ho, rfl⟩)
      (fun x y z hxy hyz i ho => ?_)).2 fun t a t' htake => ?_
    · obtain ⟨hy, hcount⟩ := hxy i ho
      obtain ⟨hz, hcount'⟩ := hyz i hy
      exact ⟨hz, hcount'.trans hcount⟩
    · have ht := hinv t htake.visits.1
      have hG := hok t a t' htake
      obtain ⟨p, q, -, -, hstep⟩ := htake
      exact (settled_step ht.1 ht.2 hstep hG).2
  exact (hpair u v huv id hover).2

end HookState

section FixedRuns

/-! One session with a once hook and a plain hook on `Stop`. -/

def stopHook (once : Bool) : HookRegistrationRequest :=
  { phase := "Stop", handler := { kind := .callback, callback := true }
    once := once }

def sessionSurface : RegistrationSurface :=
  { sourceKind := .sessionApi, sessionId := some "session" }

def stopPayload : HookPayload := { phase := "Stop" }

def stopDispatch (call : Nat) : HookAction :=
  .dispatch call "session" stopPayload {}

/-- A dispatch is suspended at the once hook when another begins. -/
def overlapping : List HookAction :=
  [.register (stopHook true) sessionSurface "", stopDispatch 0,
    stopDispatch 1]

/-- A hook is released while a dispatch that selected it is suspended. -/
def releasedWhileDue : List HookAction :=
  [.register (stopHook false) sessionSurface "",
    .register (stopHook false) sessionSurface "", stopDispatch 0,
    .releaseRegistration 2]

/-- Both halves of the rule fail. -/
theorem once_hook_called_twice :
    (∃ t, hookSystem.Visits {} overlapping t
        ∧ t.Once 1 ∧ t.invoked.count 1 = 2)
      ∧ ∃ u v, hookSystem.Passes {}
          (releasedWhileDue ++ [.handlerEnds 0 .returned]) u v
        ∧ u.Over 2 ∧ v.invoked.count 2 = u.invoked.count 2 + 1 := by
  refine ⟨⟨_, System.Visits.finish rfl, ⟨_, rfl, rfl⟩, rfl⟩, ?_⟩
  have hfirst : hookSystem.run {} releasedWhileDue = some _ := rfl
  have hpass : hookSystem.Passes {}
      (releasedWhileDue ++ [.handlerEnds 0 .returned]) _ _ :=
    ⟨releasedWhileDue, [.handlerEnds 0 .returned], [],
      (List.append_nil _).symm, hfirst, rfl⟩
  exact ⟨_, _, hpass, ⟨_, rfl, rfl⟩, rfl⟩

def inTurn : List HookAction :=
  [.register (stopHook true) sessionSurface "", stopDispatch 0,
    .handlerEnds 0 .returned, stopDispatch 1]

theorem orderly_register (s : HookState) (request : HookRegistrationRequest)
    (surface : RegistrationSurface) (generatedOwner : String) :
    s.Orderly (.register request surface generatedOwner) := by
  refine ⟨fun id h => h.elim, fun call sid payload context heq => ?_⟩
  cases heq

theorem orderly_handlerEnds (s : HookState) (call : Nat)
    (outcome : HandlerOutcome) : s.Orderly (.handlerEnds call outcome) := by
  refine ⟨fun id h => h.elim, fun call sid payload context heq => ?_⟩
  cases heq

theorem orderly_dispatch {s : HookState} {call : Nat} {sessionId : String}
    {payload : HookPayload} {context : DispatchContext}
    (hidle : s.dispatches = Dict.empty)
    (hfresh : ∀ r ∈ (s.bus.materializeSession sessionId).activeRecords
      sessionId payload context, r.registrationId ∉ s.invoked) :
    s.Orderly (.dispatch call sessionId payload context) := by
  refine ⟨fun id h => h.elim, fun c sid p ctx heq r hr _ _ => ?_⟩
  cases heq
  refine ⟨hfresh r hr, fun other hdue => ?_⟩
  obtain ⟨d, -, hd, -⟩ := hdue
  rw [hidle, Dict.get?_empty] at hd
  cases hd

theorem orderly_inTurn (s : HookState) (a : HookAction) (s' : HookState)
    (h : hookSystem.Takes {} inTurn s a s') : s.Orderly a := by
  rcases (System.takes_cons rfl).1 h with ⟨rfl, rfl, -⟩ | h
  · exact orderly_register ..
  rcases (System.takes_cons rfl).1 h with ⟨rfl, rfl, -⟩ | h
  · refine orderly_dispatch rfl fun r _ => ?_
    exact List.not_mem_nil
  rcases (System.takes_cons rfl).1 h with ⟨rfl, rfl, -⟩ | h
  · exact orderly_handlerEnds ..
  rcases (System.takes_cons rfl).1 h with ⟨rfl, rfl, -⟩ | h
  · refine orderly_dispatch rfl fun r hr => ?_
    exact absurd hr List.not_mem_nil
  · obtain ⟨p, q, heq, -⟩ := h
    cases p with
    | nil => cases heq
    | cons _ _ => cases heq

/-- The once hook is called by the first of two dispatches. -/
theorem once_hooks_fire_once_inTurn :
    ∃ t, hookSystem.Visits {} inTurn t ∧ t.Once 1
      ∧ t.invoked.count 1 ≤ 1 := by
  refine ⟨_, System.Visits.finish rfl, ⟨_, rfl, rfl⟩, ?_⟩
  exact (HookState.once_hooks_fire_once orderly_inTurn).1 _
    (System.Visits.finish rfl) 1 ⟨_, rfl, rfl⟩

end FixedRuns

end WeaveRuntime.Hooks
