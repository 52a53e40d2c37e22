/-
What one operation of the bus can do to the registrations.

A record is never removed and never replaced: its activation state moves
from PENDING or ACTIVE to RELEASED or EXPIRED, never back, and nothing
else of it changes but the list of its descendants (`Becomes`). A record
that appears has an id above every id handed out before. `Evolves hit`
says this of two buses, with `hit` bounding the registrations whose state
may have moved: none for a registration or a materialisation, the ids it
names for a release.
-/
import WeaveRuntime.Hooks.Bus

namespace WeaveRuntime.Hooks

open Lib

-- ============= records

/-- PENDING or ACTIVE: the states that are left again. -/
def HookActivationState.live : HookActivationState → Bool
  | .pendingActivation | .active => true
  | .released | .expired | .rejected => false

def HookActivationState.over : HookActivationState → Bool
  | .released | .expired => true
  | .pendingActivation | .active | .rejected => false

theorem not_live_of_over {st : HookActivationState} (h : st.over = true) :
    st.live = false := by
  cases st <;> first | rfl | cases h

theorem active_iff {r : RegistrationRecord} :
    r.active = true ↔ r.activationState = .active := by
  unfold RegistrationRecord.active
  exact beq_iff_eq

/-- The later form of a record, its state moved only where `hit`. -/
structure RegistrationRecord.Becomes (hit : HookActivationState → Prop)
    (r r' : RegistrationRecord) : Prop where
  same : ∃ st ds, r' = { r with activationState := st, descendantIds := ds }
  state : r'.activationState = r.activationState
    ∨ hit r'.activationState ∧ r.activationState.live = true
      ∧ r'.activationState.over = true

namespace RegistrationRecord.Becomes

variable {hit hit' : HookActivationState → Prop}
  {r r' r'' : RegistrationRecord}

theorem refl (hit : HookActivationState → Prop) (r : RegistrationRecord) :
    r.Becomes hit r :=
  ⟨⟨_, _, rfl⟩, Or.inl rfl⟩

section

variable (h : r.Becomes hit r')
include h

theorem mono (hle : ∀ st, hit st → hit' st) : r.Becomes hit' r' :=
  ⟨h.same, h.state.imp id fun e => ⟨hle _ e.1, e.2⟩⟩

theorem trans (h' : r'.Becomes hit r'') : r.Becomes hit r'' := by
  obtain ⟨⟨st, ds, rfl⟩, hst⟩ := h
  obtain ⟨⟨st', ds', rfl⟩, hst'⟩ := h'
  refine ⟨⟨_, _, rfl⟩, ?_⟩
  rcases hst' with heq | ⟨hh, hl, ho⟩
  · rcases hst with heq' | hst
    · exact Or.inl (heq.trans heq')
    · exact Or.inr ⟨heq ▸ hst.1, hst.2.1, heq ▸ hst.2.2⟩
  · rcases hst with heq' | ⟨hh', hl', -⟩
    · exact Or.inr ⟨hh, heq' ▸ hl, ho⟩
    · exact Or.inr ⟨hh, hl', ho⟩

theorem once : r'.once = r.once := by
  obtain ⟨⟨_, _, rfl⟩, -⟩ := h
  rfl

theorem matcher : r'.matcher = r.matcher := by
  obtain ⟨⟨_, _, rfl⟩, -⟩ := h
  rfl

theorem over_stays (hover : r.activationState.over = true) :
    r'.activationState.over = true := by
  rcases h.state with heq | ⟨-, hl, -⟩
  · exact heq ▸ hover
  · rw [not_live_of_over hover] at hl
    cases hl

/-- What is ACTIVE later was ACTIVE or PENDING; a PENDING record never
becomes ACTIVE. -/
theorem active_before (hactive : r'.activationState = .active) :
    r.activationState = .active := by
  rcases h.state with heq | ⟨-, -, ho⟩
  · exact heq ▸ hactive
  · rw [hactive] at ho
    cases ho

theorem active_stays (hhit : ∀ st, ¬ hit st)
    (hactive : r.activationState = .active) :
    r'.activationState = .active := by
  rcases h.state with heq | ⟨hh, -⟩
  · exact heq.trans hactive
  · exact absurd hh (hhit _)

end

end RegistrationRecord.Becomes

-- =============== buses

namespace HookBus

/-- The later form of a bus. -/
structure Evolves (hit : Nat → HookActivationState → Prop)
    (bus bus' : HookBus) : Prop where
  counter : bus.creationCounter ≤ bus'.creationCounter
  kept : ∀ id r, bus.records.get? id = some r →
    ∃ r', bus'.records.get? id = some r' ∧ r.Becomes (hit id) r'
  fresh : ∀ id r', bus.records.get? id = none →
    bus'.records.get? id = some r' → bus.creationCounter < id

/-- No registration is hit. -/
def nothing (_ : Nat) (_ : HookActivationState) : Prop := False

theorem Evolves.refl (hit : Nat → HookActivationState → Prop)
    (bus : HookBus) : bus.Evolves hit bus := by
  refine ⟨Nat.le_refl _, fun id r h => ⟨r, h, .refl _ r⟩, ?_⟩
  intro id r' hnone hsome
  rw [hnone] at hsome
  cases hsome

variable {bus bus' : HookBus} {hit : Nat → HookActivationState → Prop}
  {r : RegistrationRecord}

theorem Evolves.mono {hit' : Nat → HookActivationState → Prop}
    (h : bus.Evolves hit bus') (hle : ∀ id st, hit id st → hit' id st) :
    bus.Evolves hit' bus' := by
  refine ⟨h.counter, fun id r hr => ?_, h.fresh⟩
  obtain ⟨r', hr', hb⟩ := h.kept id r hr
  exact ⟨r', hr', hb.mono (hle id)⟩

theorem Evolves.trans {bus'' : HookBus} (h : bus.Evolves hit bus')
    (h' : bus'.Evolves hit bus'') : bus.Evolves hit bus'' := by
  refine ⟨Nat.le_trans h.counter h'.counter, ?_, ?_⟩
  · intro id r hr
    obtain ⟨r', hr', hb⟩ := h.kept id r hr
    obtain ⟨r'', hr'', hb'⟩ := h'.kept id r' hr'
    exact ⟨r'', hr'', hb.trans hb'⟩
  · intro id r'' hnone hr''
    cases hr' : bus'.records.get? id with
    | none => exact Nat.lt_of_le_of_lt h.counter (h'.fresh id r'' hr' hr'')
    | some r' => exact h.fresh id r' hnone hr'

theorem evolves_write {id : Nat} {r' : RegistrationRecord}
    (hcount : bus'.creationCounter = bus.creationCounter)
    (hrecords : bus'.records = bus.records.insert id r')
    (hr : bus.records.get? id = some r) (hb : r.Becomes (hit id) r') :
    bus.Evolves hit bus' := by
  refine ⟨hcount ▸ Nat.le_refl _, ?_, ?_⟩
  · intro i q hq
    rw [hrecords]
    by_cases hi : i = id
    · subst hi
      rw [hr] at hq
      cases hq
      exact ⟨r', Dict.get?_insert_self .., hb⟩
    · rw [Dict.get?_insert_of_ne _ _ hi]
      exact ⟨q, hq, .refl _ q⟩
  · intro i q hnone hq
    rw [hrecords] at hq
    by_cases hi : i = id
    · subst hi
      rw [hr] at hnone
      cases hnone
    · rw [Dict.get?_insert_of_ne _ _ hi, hnone] at hq
      cases hq

theorem evolves_add (hcount : bus'.creationCounter = bus.creationCounter + 1)
    (hrecords : bus'.records
      = bus.records.insert (bus.creationCounter + 1) r)
    (hfree : bus.records.get? (bus.creationCounter + 1) = none) :
    bus.Evolves nothing bus' := by
  refine ⟨hcount ▸ Nat.le_succ _, ?_, ?_⟩
  · intro id q hq
    rw [hrecords]
    by_cases hid : id = bus.creationCounter + 1
    · rw [hid, hfree] at hq
      cases hq
    · exact ⟨q, (Dict.get?_insert_of_ne _ _ hid).trans hq, .refl _ q⟩
  · intro id q hnone hq
    rw [hrecords] at hq
    by_cases hid : id = bus.creationCounter + 1
    · omega
    · rw [Dict.get?_insert_of_ne _ _ hid, hnone] at hq
      cases hq

theorem evolves_of_records
    (hcount : bus.creationCounter ≤ bus'.creationCounter)
    (hrecords : bus'.records = bus.records) : bus.Evolves hit bus' := by
  refine ⟨hcount, fun id r hr => ⟨r, hrecords ▸ hr, .refl _ r⟩, ?_⟩
  intro id r' hnone hsome
  rw [hrecords, hnone] at hsome
  cases hsome

-- ============== lawful

/-- Records are stored under their ids, ids come from the counter, and
the order of a session lists each once. -/
structure Lawful (bus : HookBus) : Prop where
  keyed : ∀ id r, bus.records.get? id = some r →
    r.registrationId = id ∧ id ≤ bus.creationCounter
  listed : ∀ sessionId, ∀ id ∈ bus.order sessionId,
    id ≤ bus.creationCounter
  nodup : ∀ sessionId, (bus.order sessionId).Nodup

theorem Lawful.free (h : bus.Lawful) {id : Nat}
    (hid : bus.creationCounter < id) : bus.records.get? id = none := by
  cases hr : bus.records.get? id with
  | none => rfl
  | some r =>
    have := (h.keyed id r hr).2
    omega

theorem Lawful.of_evolves (h : bus.Lawful) (he : bus.Evolves hit bus')
    (hcount : bus'.creationCounter = bus.creationCounter)
    (horder : bus'.sessionOrder = bus.sessionOrder)
    (hkeys : ∀ id r', bus.records.get? id = none →
      bus'.records.get? id ≠ some r') : bus'.Lawful := by
  have hsame : ∀ sessionId, bus'.order sessionId = bus.order sessionId :=
    fun sessionId => by unfold order; rw [horder]
  refine ⟨?_, ?_, ?_⟩
  · intro id r' hr'
    cases hr : bus.records.get? id with
    | none => exact absurd hr' (hkeys id r' hr)
    | some r =>
      obtain ⟨q, hq, ⟨_, _, rfl⟩, -⟩ := he.kept id r hr
      rw [hr'] at hq
      cases hq
      exact ⟨(h.keyed id r hr).1, hcount ▸ (h.keyed id r hr).2⟩
  · intro sessionId id hid
    rw [hsame] at hid
    exact hcount ▸ h.listed sessionId id hid
  · intro sessionId
    rw [hsame]
    exact h.nodup sessionId

theorem Lawful.add (h : bus.Lawful)
    (hid : r.registrationId = bus.creationCounter + 1)
    (hcount : bus'.creationCounter = bus.creationCounter + 1)
    (hrecords : bus'.records
      = bus.records.insert (bus.creationCounter + 1) r)
    (horder : ∀ sessionId, bus'.order sessionId = bus.order sessionId
      ∨ bus'.order sessionId
        = bus.order sessionId ++ [bus.creationCounter + 1]) :
    bus'.Lawful := by
  refine ⟨?_, ?_, ?_⟩
  · intro id q hq
    rw [hrecords] at hq
    by_cases hne : id = bus.creationCounter + 1
    · subst hne
      rw [Dict.get?_insert_self] at hq
      cases hq
      exact ⟨hid, hcount ▸ Nat.le_refl _⟩
    · rw [Dict.get?_insert_of_ne _ _ hne] at hq
      have := h.keyed id q hq
      exact ⟨this.1, by omega⟩
  · intro sessionId id hmem
    rcases horder sessionId with heq | heq
    · rw [heq] at hmem
      have := h.listed sessionId id hmem
      omega
    · rw [heq, List.mem_append, List.mem_singleton] at hmem
      rcases hmem with hmem | rfl
      · have := h.listed sessionId id hmem
        omega
      · omega
  · intro sessionId
    rcases horder sessionId with heq | heq
    · rw [heq]
      exact h.nodup sessionId
    · rw [heq]
      refine List.Nodup.append (h.nodup sessionId)
        (List.nodup_singleton _) ?_
      intro id hmem hid'
      rw [List.mem_singleton] at hid'
      have := h.listed sessionId id hmem
      omega

-- ======== registration

@[simp] theorem records_addToSession (bus : HookBus) (sessionId : String)
    (r : RegistrationRecord) :
    (bus.addToSession sessionId r).records
      = bus.records.insert r.registrationId r := rfl

theorem order_addToSession (bus : HookBus) (sessionId : String)
    (r : RegistrationRecord) (sid : String) :
    (bus.addToSession sessionId r).order sid
      = if sid = sessionId then bus.order sid ++ [r.registrationId]
        else bus.order sid := by
  unfold order addToSession
  by_cases h : sid = sessionId
  · subst h
    simp [order]
  · simp [Dict.get?_insert_of_ne _ _ h, h]

theorem registerRequest_cases (bus : HookBus)
    (request : HookRegistrationRequest) (surface : RegistrationSurface)
    (generatedOwner : String) :
    let bus' := (bus.registerRequest request surface generatedOwner).1
    bus'.creationCounter = bus.creationCounter + 1
      ∧ bus'.materializedTemplates = bus.materializedTemplates
      ∧ bus'.callbackBindings = bus.callbackBindings
      ∧ (bus'.records = bus.records
          ∧ bus'.sessionOrder = bus.sessionOrder
          ∧ bus'.templateOrder = bus.templateOrder
        ∨ ∃ r, r.registrationId = bus.creationCounter + 1
          ∧ r.parentRegistrationId = none
          ∧ bus'.records = bus.records.insert (bus.creationCounter + 1) r
          ∧ (∀ sid, bus'.order sid = bus.order sid
            ∨ r.sessionId = some sid ∧ bus'.order sid
              = bus.order sid ++ [bus.creationCounter + 1])
          ∧ (bus'.templateOrder = bus.templateOrder
              ∧ r.activationState ≠ .pendingActivation
            ∨ bus'.templateOrder
                = bus.templateOrder ++ [bus.creationCounter + 1])) := by
  intro bus'
  simp only [bus', registerRequest]
  cases validateRequest bus request surface _ with
  | some reason =>
    refine ⟨rfl, rfl, rfl, Or.inr ⟨_, ?_, ?_, rfl, fun _ => Or.inl rfl,
      Or.inl ⟨rfl, ?_⟩⟩⟩
    · rfl
    · rfl
    · exact nofun
  | none =>
    by_cases htemplate : (resolveScope request.scope surface.sessionId
        surface.turnId surface.defaultScopeLifetime).lifetime
          = .sessionTemplate
    · rw [if_pos htemplate]
      refine ⟨rfl, rfl, rfl, Or.inr ⟨_, ?_, ?_, rfl, fun _ => Or.inl rfl,
        Or.inr rfl⟩⟩
      · rfl
      · rfl
    · rw [if_neg htemplate]
      cases hs : orString surface.sessionId _ with
      | none => exact ⟨rfl, rfl, rfl, Or.inl ⟨rfl, rfl, rfl⟩⟩
      | some sessionId =>
        refine ⟨rfl, rfl, rfl, Or.inr ⟨_, ?_, ?_, rfl, fun sid => ?_,
          Or.inl ⟨rfl, ?_⟩⟩⟩
        · rfl
        · rfl
        · show (addToSession _ sessionId _).order sid = _
            ∨ _ ∧ (addToSession _ sessionId _).order sid = _
          rw [order_addToSession]
          by_cases h : sid = sessionId
          · exact Or.inr ⟨h ▸ hs, if_pos h⟩
          · exact Or.inl (if_neg h)
        · exact nofun

theorem registerRequest_spec (h : bus.Lawful)
    (request : HookRegistrationRequest) (surface : RegistrationSurface)
    (generatedOwner : String) :
    (bus.registerRequest request surface generatedOwner).1.Lawful
      ∧ bus.Evolves nothing
          (bus.registerRequest request surface generatedOwner).1 := by
  obtain ⟨hcount, -, -, hor⟩ :=
    bus.registerRequest_cases request surface generatedOwner
  rcases hor with ⟨hrec, hord, -⟩ | ⟨r, hid, -, hrec, hord, -⟩
  · refine ⟨⟨?_, ?_, ?_⟩, evolves_of_records (by omega) hrec⟩
    · intro id r hr
      rw [hrec] at hr
      have := h.keyed id r hr
      exact ⟨this.1, by omega⟩
    · intro sid id hmem
      unfold order at hmem
      rw [hord] at hmem
      have := h.listed sid id hmem
      omega
    · intro sid
      unfold order
      rw [hord]
      exact h.nodup sid
  · exact ⟨h.add hid hcount hrec fun sid => (hord sid).imp id And.right,
      evolves_add hcount hrec (h.free (by omega))⟩

-- ===== materialisation

/-- Whether `materialize_session` creates a descendant of a template. -/
structure Materializes (bus : HookBus) (sessionId : String)
    (templateId : Nat) (template : RegistrationRecord) : Prop where
  unseen : templateId ∉ bus.materialized sessionId
  found : bus.records.get? templateId = some template
  pending : template.activationState = .pendingActivation
  bound : bus.bound template = true

theorem materializeTemplate_cases (bus : HookBus) (sessionId : String)
    (templateId : Nat) :
    (bus.materializeTemplate sessionId templateId = bus
        ∧ ∀ template, ¬ bus.Materializes sessionId templateId template)
      ∨ ∃ template, bus.Materializes sessionId templateId template
        ∧ bus.materializeTemplate sessionId templateId =
          { ({ bus with creationCounter := bus.creationCounter + 1
                }.addToSession sessionId
                  (bus.descendant sessionId template)) with
            records := (bus.records.insert (bus.creationCounter + 1)
              (bus.descendant sessionId template)).insert templateId
                { template with
                  descendantIds :=
                    template.descendantIds ++ [bus.creationCounter + 1] }
            materializedTemplates := bus.materializedTemplates.insert
              sessionId (bus.materialized sessionId ++ [templateId]) } := by
  unfold materializeTemplate
  by_cases hseen : templateId ∈ bus.materialized sessionId
  · refine Or.inl ⟨if_pos hseen, fun t ht => ht.unseen hseen⟩
  rw [if_neg hseen]
  cases hrec : bus.records.get? templateId with
  | none =>
    refine Or.inl ⟨rfl, fun t ht => ?_⟩
    have := ht.found
    rw [hrec] at this
    cases this
  | some template =>
    have hsame : ∀ t, bus.Materializes sessionId templateId t →
        t = template := fun t ht => by
      have := ht.found
      rw [hrec] at this
      cases this
      rfl
    by_cases hpending : template.activationState = .pendingActivation
    · by_cases hbound : bus.bound template = true
      · refine Or.inr ⟨template, ⟨hseen, hrec, hpending, hbound⟩, ?_⟩
        simp only [hpending, hbound, ne_eq, not_true_eq_false, if_false,
          Bool.not_true, Bool.false_eq_true]
        rfl
      · refine Or.inl ⟨?_, fun t ht => hbound (hsame t ht ▸ ht.bound)⟩
        simp [hpending, hbound]
    · refine Or.inl ⟨?_, fun t ht => hpending (hsame t ht ▸ ht.pending)⟩
      simp [hpending]

theorem materializeTemplate_spec (h : bus.Lawful) (sessionId : String)
    (templateId : Nat) :
    (bus.materializeTemplate sessionId templateId).Lawful
      ∧ bus.Evolves nothing
          (bus.materializeTemplate sessionId templateId) := by
  rcases bus.materializeTemplate_cases sessionId templateId with
    ⟨heq, -⟩ | ⟨template, hm, heq⟩
  · rw [heq]
    exact ⟨h, Evolves.refl _ bus⟩
  rw [heq]
  have hfree : bus.records.get? (bus.creationCounter + 1) = none :=
    h.free (by omega)
  have hne : templateId ≠ bus.creationCounter + 1 := by
    have := (h.keyed templateId template hm.found).2
    omega
  -- first the descendant, then its id in the template's list
  have hadded : ({ bus with creationCounter := bus.creationCounter + 1
      }.addToSession sessionId (bus.descendant sessionId template)).Lawful :=
    by
      refine h.add rfl rfl rfl fun sid => ?_
      rw [order_addToSession]
      by_cases hsid : sid = sessionId
      · exact Or.inr (if_pos hsid)
      · exact Or.inl (if_neg hsid)
  have hfound : ({ bus with creationCounter := bus.creationCounter + 1
      }.addToSession sessionId
        (bus.descendant sessionId template)).records.get? templateId
          = some template :=
    (Dict.get?_insert_of_ne _ _ hne).trans hm.found
  have hgrown : HookBus.Evolves nothing
      ({ bus with creationCounter := bus.creationCounter + 1
        }.addToSession sessionId (bus.descendant sessionId template))
      { ({ bus with creationCounter := bus.creationCounter + 1
            }.addToSession sessionId (bus.descendant sessionId template)) with
        records := (bus.records.insert (bus.creationCounter + 1)
          (bus.descendant sessionId template)).insert templateId
            { template with
              descendantIds :=
                template.descendantIds ++ [bus.creationCounter + 1] }
        materializedTemplates := bus.materializedTemplates.insert
          sessionId (bus.materialized sessionId ++ [templateId]) } :=
    evolves_write rfl rfl hfound ⟨⟨_, _, rfl⟩, Or.inl rfl⟩
  refine ⟨hadded.of_evolves hgrown rfl rfl ?_,
    (evolves_add rfl rfl hfree).trans hgrown⟩
  intro id r' hnone hr'
  have hid : id ≠ templateId := by
    intro hid
    rw [hid, hfound] at hnone
    cases hnone
  rw [Dict.get?_insert_of_ne _ _ hid] at hr'
  exact absurd (hr'.symm.trans hnone) nofun

theorem materializeSession_spec (h : bus.Lawful) (sessionId : String) :
    (bus.materializeSession sessionId).Lawful
      ∧ bus.Evolves nothing (bus.materializeSession sessionId) := by
  unfold materializeSession
  generalize bus.templateOrder = ids
  induction ids generalizing bus with
  | nil => exact ⟨h, Evolves.refl _ bus⟩
  | cons id ids ih =>
    obtain ⟨hlaw, hev⟩ := materializeTemplate_spec h sessionId id
    obtain ⟨hlaw', hev'⟩ := ih hlaw
    exact ⟨hlaw', hev.trans hev'⟩

-- ============= release

theorem get?_deactivate (test : RegistrationRecord → Bool)
    (state : HookActivationState) (bus : HookBus) (ids : List Nat)
    (hstate : state ≠ .active) (id : Nat) :
    (deactivate test state bus ids).records.get? id
      = (bus.records.get? id).map fun r =>
          if id ∈ ids ∧ r.active = true ∧ test r = true then
            { r with activationState := state }
          else r := by
  induction ids generalizing bus with
  | nil => simp [deactivate]
  | cons i ids ih =>
    unfold deactivate
    cases hi : bus.records.get? i with
    | none =>
      show (deactivate test state bus ids).records.get? id = _
      rw [ih]
      cases hid : bus.records.get? id with
      | none => rfl
      | some r =>
        have hne : id ≠ i := by
          intro hne
          rw [hne, hi] at hid
          cases hid
        simp [hne]
    | some q =>
      dsimp only
      by_cases hq : (q.active && test q) = true
      · rw [if_pos hq, ih]
        rw [Bool.and_eq_true] at hq
        by_cases hid : id = i
        · subst hid
          rw [hi, Dict.get?_insert_self]
          have : ({ q with activationState := state }
              : RegistrationRecord).active = false := by
            unfold RegistrationRecord.active
            exact beq_eq_false_iff_ne.2 hstate
          simp [this, hq.1, hq.2]
        · rw [Dict.get?_insert_of_ne _ _ hid]
          simp [hid]
      · rw [if_neg hq, ih]
        by_cases hid : id = i
        · subst hid
          rw [hi]
          rw [Bool.and_eq_true] at hq
          simp [hq]
        · simp [hid]

@[simp] theorem creationCounter_deactivate (test : RegistrationRecord → Bool)
    (state : HookActivationState) (bus : HookBus) (ids : List Nat) :
    (deactivate test state bus ids).creationCounter
      = bus.creationCounter := by
  fun_induction deactivate test state bus ids <;> simp_all

@[simp] theorem sessionOrder_deactivate (test : RegistrationRecord → Bool)
    (state : HookActivationState) (bus : HookBus) (ids : List Nat) :
    (deactivate test state bus ids).sessionOrder = bus.sessionOrder := by
  fun_induction deactivate test state bus ids <;> simp_all

/-- The registrations a deactivation of `ids` hits. -/
def Hit (bus : HookBus) (test : RegistrationRecord → Bool)
    (ids : List Nat) (id : Nat) : Prop :=
  id ∈ ids ∧ ∃ r, bus.records.get? id = some r ∧ test r = true

theorem deactivate_spec (h : bus.Lawful) (test : RegistrationRecord → Bool)
    (state : HookActivationState) (hstate : state.over = true)
    (ids : List Nat) :
    (deactivate test state bus ids).Lawful
      ∧ bus.Evolves (fun id st => bus.Hit test ids id ∧ st = state)
          (deactivate test state bus ids) := by
  have hne : state ≠ .active := by
    intro heq
    rw [heq] at hstate
    cases hstate
  have hget := get?_deactivate test state bus ids hne
  have hev : bus.Evolves (fun id st => bus.Hit test ids id ∧ st = state)
      (deactivate test state bus ids) := by
    refine ⟨by simp, fun id r hr => ?_, fun id r' hnone hr' => ?_⟩
    · refine ⟨_, (hget id).trans (by rw [hr]; rfl), ?_⟩
      dsimp only
      by_cases hhit : id ∈ ids ∧ r.active = true ∧ test r = true
      · rw [if_pos hhit]
        refine ⟨⟨_, _, rfl⟩, Or.inr ⟨⟨⟨hhit.1, r, hr, hhit.2.2⟩, rfl⟩,
          ?_, hstate⟩⟩
        rw [active_iff.1 hhit.2.1]
        rfl
      · rw [if_neg hhit]
        exact .refl _ r
    · rw [hget, hnone] at hr'
      cases hr'
  refine ⟨h.of_evolves hev (by simp) (by simp) fun id r' hnone hr' => ?_, hev⟩
  rw [hget, hnone] at hr'
  cases hr'

/-- The registrations an operation of the bus takes out of use. -/
def Releases (bus : HookBus) (id : Nat) : HookAction → Prop
  | .releaseRegistration i => id = i
      ∨ ∃ r, bus.records.get? i = some r ∧ id ∈ r.descendantIds
  | .releaseOwner sessionId owner =>
    bus.Hit (fun r => r.owner = owner) (bus.order sessionId) id
  | .clearSession sessionId => id ∈ bus.order sessionId
  | .releaseTurn sessionId turnId =>
    bus.Hit (fun r => r.scope.lifetime = .turn && r.turnId = turnId)
      (bus.order sessionId) id
  | _ => False

/-- The state an operation of the bus takes registrations to. -/
def releasedState : HookAction → HookActivationState
  | .releaseRegistration _ | .releaseOwner .. => .released
  | _ => .expired

/-- The registrations an operation moves, and where to. -/
def Moves (bus : HookBus) (a : HookAction) (id : Nat)
    (st : HookActivationState) : Prop :=
  bus.Releases id a ∧ st = releasedState a

theorem releaseRegistration_cases (bus : HookBus) (id : Nat) :
    bus.releaseRegistration id = bus
      ∨ ∃ r, bus.records.get? id = some r ∧ r.activationState.live = true
        ∧ bus.releaseRegistration id
          = deactivate (fun _ => true) .released { bus with
              records := bus.records.insert id
                { r with activationState := .released } }
                  r.descendantIds := by
  unfold releaseRegistration
  cases hr : bus.records.get? id with
  | none => exact Or.inl rfl
  | some r =>
    dsimp only
    cases hst : r.activationState with
    | pendingActivation => exact Or.inr ⟨r, rfl, by rw [hst]; rfl, rfl⟩
    | active => exact Or.inr ⟨r, rfl, by rw [hst]; rfl, rfl⟩
    | _ => exact Or.inl rfl

theorem releaseRegistration_spec (h : bus.Lawful) (id : Nat) :
    (bus.releaseRegistration id).Lawful
      ∧ bus.Evolves (bus.Moves (.releaseRegistration id))
          (bus.releaseRegistration id) := by
  rcases bus.releaseRegistration_cases id with heq | ⟨r, hr, hlive, heq⟩
  · rw [heq]
    exact ⟨h, Evolves.refl _ bus⟩
  rw [heq]
  have hev : bus.Evolves (bus.Moves (.releaseRegistration id)) { bus with
      records := bus.records.insert id
        { r with activationState := .released } } :=
    evolves_write rfl rfl hr
      ⟨⟨_, _, rfl⟩, Or.inr ⟨⟨Or.inl rfl, rfl⟩, hlive, rfl⟩⟩
  have hlaw := h.of_evolves hev rfl rfl fun i q hnone hq => by
    have hi : i ≠ id := by
      intro hi
      rw [hi, hr] at hnone
      cases hnone
    rw [Dict.get?_insert_of_ne _ _ hi, hnone] at hq
    cases hq
  obtain ⟨hlaw', hev'⟩ := deactivate_spec hlaw (fun _ => true)
    .released rfl r.descendantIds
  refine ⟨hlaw', hev.trans (hev'.mono fun i st hi => ?_)⟩
  exact ⟨Or.inr ⟨r, hr, hi.1.1⟩, hi.2⟩

end HookBus

-- =============== steps

theorem hookStep_cases {s s' : HookState} {a : HookAction}
    (hlaw : s.bus.Lawful) (h : hookStep s a = some s') :
    (∃ bus', s' = { s with bus := bus' } ∧ bus'.Lawful
        ∧ s.bus.Evolves (s.bus.Moves a) bus')
      ∨ (∃ call sessionId payload context,
          a = .dispatch call sessionId payload context
          ∧ s.dispatches.get? call = none
          ∧ s' = s.dispatch call sessionId payload context)
      ∨ ∃ call d outcome, a = .handlerEnds call outcome
          ∧ s.dispatches.get? call = some d
          ∧ s' = s.handlerEnds call d outcome := by
  have hlawful : ∀ bus' : HookBus, bus'.records = s.bus.records →
      bus'.sessionOrder = s.bus.sessionOrder →
      bus'.creationCounter = s.bus.creationCounter → bus'.Lawful := by
    intro bus' hrec hord hcount
    have hev : s.bus.Evolves HookBus.nothing bus' :=
      HookBus.evolves_of_records (by omega) hrec
    refine hlaw.of_evolves hev hcount hord fun id r' hnone hr' => ?_
    rw [hrec, hnone] at hr'
    cases hr'
  cases a with
  | register request surface generatedOwner =>
    cases h
    obtain ⟨hlaw', hev⟩ :=
      HookBus.registerRequest_spec hlaw request surface generatedOwner
    exact Or.inl ⟨_, rfl, hlaw', hev.mono fun _ _ hf => hf.elim⟩
  | materializeSession sessionId =>
    cases h
    obtain ⟨hlaw', hev⟩ := HookBus.materializeSession_spec hlaw sessionId
    exact Or.inl ⟨_, rfl, hlaw', hev.mono fun _ _ hf => hf.elim⟩
  | releaseRegistration id =>
    cases h
    obtain ⟨hlaw', hev⟩ := HookBus.releaseRegistration_spec hlaw id
    exact Or.inl ⟨_, rfl, hlaw', hev⟩
  | releaseOwner sessionId owner =>
    cases h
    obtain ⟨hlaw', hev⟩ := HookBus.deactivate_spec hlaw
      (fun r => r.owner = owner) .released rfl
      (s.bus.order sessionId)
    exact Or.inl ⟨_, rfl, hlaw', hev⟩
  | clearSession sessionId =>
    cases h
    obtain ⟨hlaw', hev⟩ := HookBus.deactivate_spec hlaw (fun _ => true)
      .expired rfl (s.bus.order sessionId)
    exact Or.inl ⟨_, rfl, hlaw', hev.mono fun _ _ hi =>
      ⟨hi.1.1, hi.2⟩⟩
  | releaseTurn sessionId turnId =>
    cases h
    cases turnId with
    | none => exact Or.inl ⟨_, rfl, hlaw, HookBus.Evolves.refl _ _⟩
    | some turn =>
      obtain ⟨hlaw', hev⟩ := HookBus.deactivate_spec hlaw
        (fun r => r.scope.lifetime = .turn && r.turnId = some turn)
        .expired rfl (s.bus.order sessionId)
      exact Or.inl ⟨_, rfl, hlaw', hev⟩
  | dispatch call sessionId payload context =>
    simp only [hookStep] at h
    split at h
    · cases h
    · next hfree =>
      cases h
      refine Or.inr (Or.inl ⟨call, sessionId, payload, context, rfl, ?_,
        rfl⟩)
      rw [Dict.contains_iff] at hfree
      exact Dict.get?_eq_none_iff.2 hfree
  | handlerEnds call outcome =>
    simp only [hookStep, Option.map_eq_some_iff] at h
    obtain ⟨d, hd, rfl⟩ := h
    exact Or.inr (Or.inr ⟨call, d, outcome, rfl, hd, rfl⟩)
  | _ =>
    cases h
    exact Or.inl ⟨_, rfl, hlawful _ rfl rfl rfl,
      HookBus.evolves_of_records (Nat.le_refl _) rfl⟩

theorem HookBus.nextHandler_eq_some {bus : HookBus}
    {target : Option String} {ids rest : List Nat} {id : Nat}
    (h : bus.nextHandler target ids = some (id, rest)) :
    (∃ pre, ids = pre ++ id :: rest)
      ∧ ∃ r, bus.records.get? id = some r
        ∧ matcherMatches r.matcher target = true := by
  induction ids with
  | nil => cases h
  | cons i ids ih =>
    have hlater : bus.nextHandler target ids = some (id, rest) →
        (∃ pre, i :: ids = pre ++ id :: rest)
          ∧ ∃ r, bus.records.get? id = some r
            ∧ matcherMatches r.matcher target = true := by
      intro hl
      obtain ⟨⟨pre, rfl⟩, hr⟩ := ih hl
      exact ⟨⟨i :: pre, rfl⟩, hr⟩
    unfold nextHandler at h
    cases hi : bus.records.get? i with
    | none =>
      rw [hi] at h
      exact hlater h
    | some r =>
      rw [hi] at h
      dsimp only at h
      by_cases hm : (matcherMatches r.matcher target && bus.permits r)
          = true
      · rw [if_pos hm] at h
        cases h
        rw [Bool.and_eq_true] at hm
        exact ⟨⟨[], rfl⟩, r, hi, hm.1⟩
      · rw [if_neg hm] at h
        exact hlater h

end WeaveRuntime.Hooks
