/-
Session templates and their descendants.

A template gets one descendant in a session, when the session is
materialised (its start, or any dispatch in it) while the template is
bound and pending; `_materialized_templates` remembers it for good
(`Rooted`). A session that has not been cleared expires none of its
descendants, except a once hook that was called (`Accounted`). A session
that has been cleared has no active descendant until it is materialised
again (`Bare`).

A template that is registered or bound while a session is open waits for
the next dispatch in it. And since the memory of what was materialised
outlives the session, a session id that is started again gets none of the
descendants back.
-/
import WeaveRuntime.Hooks.Calls
import WeaveRuntime.Hooks.Sessions

namespace WeaveRuntime.Hooks

open Lib

/-- A descendant of the template in the session. -/
def RegistrationRecord.DescendsFrom (r : RegistrationRecord)
    (sessionId : String) (templateId : Nat) : Prop :=
  r.parentRegistrationId = some templateId ∧ r.sessionId = some sessionId

namespace RegistrationRecord.Becomes

variable {hit : HookActivationState → Prop} {r r' : RegistrationRecord}

section

variable (h : r.Becomes hit r')
include h

theorem parent : r'.parentRegistrationId = r.parentRegistrationId := by
  obtain ⟨⟨_, _, rfl⟩, -⟩ := h
  rfl

theorem session : r'.sessionId = r.sessionId := by
  obtain ⟨⟨_, _, rfl⟩, -⟩ := h
  rfl

theorem scope : r'.scope = r.scope := by
  obtain ⟨⟨_, _, rfl⟩, -⟩ := h
  rfl

theorem handlerManifest : r'.handlerManifest = r.handlerManifest := by
  obtain ⟨⟨_, _, rfl⟩, -⟩ := h
  rfl

theorem pending_before (hp : r'.activationState = .pendingActivation) :
    r.activationState = .pendingActivation := by
  rcases h.state with heq | ⟨-, -, ho⟩
  · exact heq ▸ hp
  · rw [hp] at ho
    cases ho

end

end RegistrationRecord.Becomes

namespace HookBus

-- ===== rooted

/-- What the bus remembers of templates and descendants agrees. -/
structure Rooted (bus : HookBus) : Prop where
  lawful : bus.Lawful
  placed : ∀ sessionId, ∀ id ∈ bus.order sessionId, ∀ r,
    bus.records.get? id = some r → r.sessionId = some sessionId
  shape : ∀ id r templateId, bus.records.get? id = some r →
    r.parentRegistrationId = some templateId →
    r.scope.lifetime = .session ∧ ∃ sessionId,
      r.sessionId = some sessionId ∧ id ∈ bus.order sessionId
        ∧ templateId ∈ bus.materialized sessionId
  sprouted : ∀ sessionId, ∀ templateId ∈ bus.materialized sessionId,
    ∃ id r, bus.records.get? id = some r
      ∧ r.DescendsFrom sessionId templateId
  unique : ∀ id id' r r' sessionId templateId,
    bus.records.get? id = some r → bus.records.get? id' = some r' →
    r.DescendsFrom sessionId templateId →
    r'.DescendsFrom sessionId templateId → id = id'
  pending : ∀ id r, bus.records.get? id = some r →
    r.activationState = .pendingActivation → id ∈ bus.templateOrder

theorem rooted_init : Rooted {} := by
  refine ⟨⟨?_, ?_, fun _ => List.nodup_nil⟩, ?_, ?_, ?_, ?_, ?_⟩
  · intro id r hr
    cases hr
  · intro sid id hid
    cases hid
  · intro sid id hid
    cases hid
  · intro id r templateId hr
    cases hr
  · intro sid id hid
    cases hid
  · intro id id' r r' sid templateId hr
    cases hr
  · intro id r hr
    cases hr

variable {bus bus' : HookBus}

theorem Rooted.of_evolves {hit : Nat → HookActivationState → Prop}
    (h : bus.Rooted) (hlaw : bus'.Lawful) (hev : bus.Evolves hit bus')
    (hcount : bus'.creationCounter = bus.creationCounter)
    (horder : bus'.sessionOrder = bus.sessionOrder)
    (hmemo : bus'.materializedTemplates = bus.materializedTemplates)
    (htemplates : bus'.templateOrder = bus.templateOrder) : bus'.Rooted := by
  have hback : ∀ id r', bus'.records.get? id = some r' →
      ∃ r, bus.records.get? id = some r ∧ r.Becomes (hit id) r' := by
    intro id r' hr'
    cases hr : bus.records.get? id with
    | none =>
      have := hev.fresh id r' hr hr'
      have := (hlaw.keyed id r' hr').2
      omega
    | some r =>
      obtain ⟨q, hq, hb⟩ := hev.kept id r hr
      cases hr'.symm.trans hq
      exact ⟨r, rfl, hb⟩
  have hord : ∀ sid, bus'.order sid = bus.order sid := by
    intro sid
    unfold order
    rw [horder]
  have hmat : ∀ sid, bus'.materialized sid = bus.materialized sid := by
    intro sid
    unfold materialized
    rw [hmemo]
  refine ⟨hlaw, ?_, ?_, ?_, ?_, ?_⟩
  · intro sid id hid r' hr'
    obtain ⟨r, hr, hb⟩ := hback id r' hr'
    rw [hb.session]
    exact h.placed sid id (hord sid ▸ hid) r hr
  · intro id r' templateId hr' hp
    obtain ⟨r, hr, hb⟩ := hback id r' hr'
    rw [hb.scope, hb.session]
    obtain ⟨hl, sid, hsid, hid, hm⟩ :=
      h.shape id r templateId hr (hb.parent ▸ hp)
    exact ⟨hl, sid, hsid, (hord sid).symm ▸ hid, (hmat sid).symm ▸ hm⟩
  · intro sid templateId hm
    obtain ⟨id, r, hr, hd⟩ := h.sprouted sid templateId (hmat sid ▸ hm)
    obtain ⟨r', hr', hb⟩ := hev.kept id r hr
    exact ⟨id, r', hr', hb.parent.trans hd.1, hb.session.trans hd.2⟩
  · intro id id' r r' sid templateId hr hr' hd hd'
    obtain ⟨q, hq, hb⟩ := hback id r hr
    obtain ⟨q', hq', hb'⟩ := hback id' r' hr'
    exact h.unique id id' q q' sid templateId hq hq'
      ⟨hb.parent ▸ hd.1, hb.session ▸ hd.2⟩
      ⟨hb'.parent ▸ hd'.1, hb'.session ▸ hd'.2⟩
  · intro id r' hr' hp
    obtain ⟨r, hr, hb⟩ := hback id r' hr'
    rw [htemplates]
    exact h.pending id r hr (hb.pending_before hp)

theorem Rooted.register (h : bus.Rooted) (request : HookRegistrationRequest)
    (surface : RegistrationSurface) (generatedOwner : String) :
    (bus.registerRequest request surface generatedOwner).1.Rooted := by
  obtain ⟨hlaw, hev⟩ :=
    registerRequest_spec h.lawful request surface generatedOwner
  obtain ⟨hcount, hmemo, -, hor⟩ :=
    bus.registerRequest_cases request surface generatedOwner
  generalize (bus.registerRequest request surface generatedOwner).1 = bus'
    at *
  have hmat : ∀ sid, bus'.materialized sid = bus.materialized sid := by
    intro sid
    unfold materialized
    rw [hmemo]
  rcases hor with ⟨hrec, hord, htem⟩ | ⟨q, -, hparent, hrec, hord, htem⟩
  · have horder : ∀ sid, bus'.order sid = bus.order sid := by
      intro sid
      unfold order
      rw [hord]
    refine ⟨hlaw, ?_, ?_, ?_, ?_, ?_⟩
    · intro sid id hid r hr
      exact h.placed sid id (horder sid ▸ hid) r (hrec ▸ hr)
    · intro id r t hr hp
      obtain ⟨hl, sid, hsid, hid, hm⟩ := h.shape id r t (hrec ▸ hr) hp
      exact ⟨hl, sid, hsid, (horder sid).symm ▸ hid, (hmat sid).symm ▸ hm⟩
    · intro sid t hm
      rw [hrec]
      exact h.sprouted sid t (hmat sid ▸ hm)
    · intro id id' r r' sid t hr hr'
      exact h.unique id id' r r' sid t (hrec ▸ hr) (hrec ▸ hr')
    · intro id r hr hp
      rw [htem]
      exact h.pending id r (hrec ▸ hr) hp
  · have hback : ∀ id r, bus'.records.get? id = some r →
        bus.records.get? id = some r
          ∨ id = bus.creationCounter + 1 ∧ r = q := by
      intro id r hr
      rw [hrec] at hr
      by_cases hid : id = bus.creationCounter + 1
      · subst hid
        rw [Dict.get?_insert_self] at hr
        cases hr
        exact Or.inr ⟨rfl, rfl⟩
      · exact Or.inl ((Dict.get?_insert_of_ne _ _ hid).symm.trans hr)
    have hold : ∀ id r t, bus'.records.get? id = some r →
        r.parentRegistrationId = some t → bus.records.get? id = some r := by
      intro id r t hr hp
      rcases hback id r hr with hr | ⟨-, rfl⟩
      · exact hr
      · rw [hparent] at hp
        cases hp
    have hsub : ∀ sid, ∀ id ∈ bus.order sid, id ∈ bus'.order sid := by
      intro sid id hid
      rcases hord sid with heq | ⟨-, heq⟩
      · exact heq ▸ hid
      · exact heq ▸ List.mem_append_left _ hid
    refine ⟨hlaw, ?_, ?_, ?_, ?_, ?_⟩
    · intro sid id hid r hr
      rcases hback id r hr with hr' | ⟨rfl, rfl⟩
      · refine h.placed sid id ?_ r hr'
        rcases hord sid with heq | ⟨-, heq⟩
        · exact heq ▸ hid
        · rw [heq, List.mem_append, List.mem_singleton] at hid
          rcases hid with hid | rfl
          · exact hid
          · have := (h.lawful.keyed _ r hr').2
            omega
      · rcases hord sid with heq | ⟨hsid, -⟩
        · have := h.lawful.listed sid _ (heq ▸ hid)
          omega
        · exact hsid
    · intro id r t hr hp
      obtain ⟨hl, sid, hsid, hid, hm⟩ := h.shape id r t (hold id r t hr hp) hp
      exact ⟨hl, sid, hsid, hsub sid id hid, (hmat sid).symm ▸ hm⟩
    · intro sid t hm
      obtain ⟨id, r, hr, hd⟩ := h.sprouted sid t (hmat sid ▸ hm)
      refine ⟨id, r, ?_, hd⟩
      have := (h.lawful.keyed id r hr).2
      rw [hrec, Dict.get?_insert_of_ne _ _ (by omega)]
      exact hr
    · intro id id' r r' sid t hr hr' hd hd'
      exact h.unique id id' r r' sid t (hold id r t hr hd.1)
        (hold id' r' t hr' hd'.1) hd hd'
    · intro id r hr hp
      rcases hback id r hr with hr' | ⟨rfl, rfl⟩
      · rcases htem with ⟨heq, -⟩ | heq
        · exact heq ▸ h.pending id r hr' hp
        · exact heq ▸ List.mem_append_left _ (h.pending id r hr' hp)
      · rcases htem with ⟨-, hne⟩ | heq
        · exact absurd hp hne
        · exact heq ▸ List.mem_append_right _ (List.mem_singleton_self _)

-- ===== materialisation

/-- The creation of one descendant, as the rest of the development sees
it. -/
structure Sprouts (bus bus' : HookBus) (sessionId : String)
    (templateId : Nat) (template : RegistrationRecord) : Prop where
  due : bus.Materializes sessionId templateId template
  counter : bus'.creationCounter = bus.creationCounter + 1
  created : bus'.records.get? (bus.creationCounter + 1)
    = some (bus.descendant sessionId template)
  order : ∀ sid, bus'.order sid = if sid = sessionId then
    bus.order sid ++ [bus.creationCounter + 1] else bus.order sid
  memo : ∀ sid, bus'.materialized sid = if sid = sessionId then
    bus.materialized sid ++ [templateId] else bus.materialized sid
  templates : bus'.templateOrder = bus.templateOrder
  bindings : bus'.callbackBindings = bus.callbackBindings

theorem materializeTemplate_sprouts (h : bus.Lawful) (sessionId : String)
    (templateId : Nat) :
    (bus.materializeTemplate sessionId templateId = bus
        ∧ ∀ template, ¬ bus.Materializes sessionId templateId template)
      ∨ ∃ template, bus.Sprouts
          (bus.materializeTemplate sessionId templateId) sessionId
          templateId template := by
  rcases bus.materializeTemplate_cases sessionId templateId with
    hsame | ⟨template, hm, heq⟩
  · exact Or.inl hsame
  refine Or.inr ⟨template, hm, ?_, ?_, ?_, ?_, ?_, ?_⟩
  · rw [heq]
    rfl
  · have hne : bus.creationCounter + 1 ≠ templateId := by
      have := (h.keyed templateId template hm.found).2
      omega
    rw [heq]
    exact (Dict.get?_insert_of_ne _ _ hne).trans (Dict.get?_insert_self ..)
  · intro sid
    rw [heq]
    exact order_addToSession ..
  · intro sid
    rw [heq]
    unfold materialized
    by_cases hs : sid = sessionId
    · subst hs
      simp
    · simp [Dict.get?_insert_of_ne _ _ hs, hs]
  · rw [heq]
    rfl
  · rw [heq]
    rfl

section Sprouting

variable {bus bus' : HookBus} {sessionId : String} {templateId : Nat}
  {template : RegistrationRecord}

theorem Sprouts.back (hs : bus.Sprouts bus' sessionId templateId template)
    (hlaw : bus'.Lawful) (hev : bus.Evolves nothing bus') {id : Nat}
    {r : RegistrationRecord} (hr : bus'.records.get? id = some r) :
    (∃ q, bus.records.get? id = some q ∧ q.Becomes (nothing id) r)
      ∨ bus.records.get? id = none ∧ id = bus.creationCounter + 1
        ∧ r = bus.descendant sessionId template := by
  cases hq : bus.records.get? id with
  | some q =>
    obtain ⟨q', hq', hb⟩ := hev.kept id q hq
    cases hr.symm.trans hq'
    exact Or.inl ⟨q, rfl, hb⟩
  | none =>
    have hlow := hev.fresh id r hq hr
    have hhigh := (hlaw.keyed id r hr).2
    have hcount := hs.counter
    have hid : id = bus.creationCounter + 1 := by omega
    subst hid
    rw [hs.created] at hr
    exact Or.inr ⟨rfl, rfl, (Option.some.inj hr).symm⟩

theorem Rooted.sprout (h : bus.Rooted)
    (hs : bus.Sprouts bus' sessionId templateId template) (hlaw : bus'.Lawful)
    (hev : bus.Evolves nothing bus') : bus'.Rooted := by
  have hsub : ∀ sid, ∀ id ∈ bus.order sid, id ∈ bus'.order sid := by
    intro sid id hid
    rw [hs.order]
    by_cases hsid : sid = sessionId
    · rw [if_pos hsid]
      exact List.mem_append_left _ hid
    · rwa [if_neg hsid]
  have hmemo : ∀ sid, ∀ t ∈ bus.materialized sid,
      t ∈ bus'.materialized sid := by
    intro sid t ht
    rw [hs.memo]
    by_cases hsid : sid = sessionId
    · rw [if_pos hsid]
      exact List.mem_append_left _ ht
    · rwa [if_neg hsid]
  have hkey : template.registrationId = templateId :=
    (h.lawful.keyed templateId template hs.due.found).1
  -- no record of this template was in this session
  have hnew : ∀ id r, bus.records.get? id = some r →
      ¬ r.DescendsFrom sessionId templateId := by
    intro id r hr hd
    obtain ⟨-, sid, hsid, -, hm⟩ := h.shape id r templateId hr hd.1
    rw [hd.2] at hsid
    cases hsid
    exact hs.due.unseen hm
  refine ⟨hlaw, ?_, ?_, ?_, ?_, ?_⟩
  · intro sid id hid r hr
    rcases hs.back hlaw hev hr with ⟨q, hq, hb⟩ | ⟨-, rfl, rfl⟩
    · rw [hb.session]
      refine h.placed sid id ?_ q hq
      rw [hs.order] at hid
      by_cases hsid : sid = sessionId
      · rw [if_pos hsid, List.mem_append, List.mem_singleton] at hid
        rcases hid with hid | rfl
        · exact hid
        · have := (h.lawful.keyed _ q hq).2
          omega
      · rwa [if_neg hsid] at hid
    · rw [hs.order] at hid
      by_cases hsid : sid = sessionId
      · exact hsid ▸ rfl
      · rw [if_neg hsid] at hid
        have := h.lawful.listed sid _ hid
        omega
  · intro id r t hr hp
    rcases hs.back hlaw hev hr with ⟨q, hq, hb⟩ | ⟨-, rfl, rfl⟩
    · rw [hb.scope, hb.session]
      obtain ⟨hl, sid, hsid, hid, hm⟩ := h.shape id q t hq (hb.parent ▸ hp)
      exact ⟨hl, sid, hsid, hsub sid id hid, hmemo sid t hm⟩
    · obtain rfl : template.registrationId = t := Option.some.inj hp
      refine ⟨rfl, sessionId, rfl, ?_, ?_⟩
      · rw [hs.order, if_pos rfl]
        exact List.mem_append_right _ (List.mem_singleton_self _)
      · rw [hs.memo, if_pos rfl, hkey]
        exact List.mem_append_right _ (List.mem_singleton_self _)
  · intro sid t hm
    have hold : t ∈ bus.materialized sid →
        ∃ id r, bus'.records.get? id = some r ∧ r.DescendsFrom sid t := by
      intro hm
      obtain ⟨id, r, hr, hd⟩ := h.sprouted sid t hm
      obtain ⟨r', hr', hb⟩ := hev.kept id r hr
      exact ⟨id, r', hr', hb.parent.trans hd.1, hb.session.trans hd.2⟩
    rw [hs.memo] at hm
    by_cases hsid : sid = sessionId
    · rw [if_pos hsid, List.mem_append, List.mem_singleton] at hm
      rcases hm with hm | rfl
      · exact hold hm
      · exact ⟨_, _, hs.created, congrArg some hkey, hsid ▸ rfl⟩
    · rw [if_neg hsid] at hm
      exact hold hm
  · intro id id' r r' sid t hr hr' hd hd'
    have hsame : ∀ i q, bus.records.get? i = some q →
        q.DescendsFrom sid t →
        (bus.descendant sessionId template).DescendsFrom sid t → False := by
      intro i q hq hd hdes
      have h1 : template.registrationId = t := Option.some.inj hdes.1
      have h2 : sessionId = sid := Option.some.inj hdes.2
      rw [hkey] at h1
      exact hnew i q hq (h1 ▸ h2 ▸ hd)
    rcases hs.back hlaw hev hr with ⟨q, hq, hb⟩ | ⟨-, rfl, rfl⟩
    · have hdq : q.DescendsFrom sid t :=
        ⟨hb.parent ▸ hd.1, hb.session ▸ hd.2⟩
      rcases hs.back hlaw hev hr' with ⟨q', hq', hb'⟩ | ⟨-, rfl, rfl⟩
      · exact h.unique id id' q q' sid t hq hq' hdq
          ⟨hb'.parent ▸ hd'.1, hb'.session ▸ hd'.2⟩
      · exact (hsame id q hq hdq hd').elim
    · rcases hs.back hlaw hev hr' with ⟨q', hq', hb'⟩ | ⟨-, rfl, rfl⟩
      · exact (hsame id' q' hq'
          ⟨hb'.parent ▸ hd'.1, hb'.session ▸ hd'.2⟩ hd).elim
      · rfl
  · intro id r hr hp
    rw [hs.templates]
    rcases hs.back hlaw hev hr with ⟨q, hq, hb⟩ | ⟨-, rfl, rfl⟩
    · exact h.pending id q hq (hb.pending_before hp)
    · cases hp

end Sprouting

/-- What materialising a session keeps, and what it adds. -/
structure Materialized (bus bus' : HookBus) (sessionId : String) :
    Prop where
  rooted : bus'.Rooted
  evolves : bus.Evolves nothing bus'
  memo : ∀ sid, ∀ t ∈ bus.materialized sid, t ∈ bus'.materialized sid
  bindings : bus'.callbackBindings = bus.callbackBindings
  added : ∀ id r, bus.records.get? id = none →
    bus'.records.get? id = some r →
    r.sessionId = some sessionId ∧ r.activationState = .active

theorem Rooted.materializeTemplate (h : bus.Rooted) (sessionId : String)
    (templateId : Nat) :
    bus.Materialized (bus.materializeTemplate sessionId templateId)
        sessionId
      ∧ ((∃ r, bus.records.get? templateId = some r
          ∧ r.activationState = .pendingActivation ∧ bus.bound r = true) →
        templateId ∈ (bus.materializeTemplate sessionId
          templateId).materialized sessionId) := by
  obtain ⟨hlaw, hev⟩ :=
    materializeTemplate_spec h.lawful sessionId templateId
  rcases materializeTemplate_sprouts h.lawful sessionId templateId with
    ⟨heq, hnot⟩ | ⟨template, hs⟩
  · rw [heq]
    refine ⟨⟨h, Evolves.refl _ bus, fun _ _ ht => ht, rfl, ?_⟩, ?_⟩
    · intro id r hnone hr
      rw [hnone] at hr
      cases hr
    · intro hdue
      obtain ⟨r, hr, hp, hb⟩ := hdue
      by_contra hunseen
      exact hnot r ⟨hunseen, hr, hp, hb⟩
  · refine ⟨⟨h.sprout hs hlaw hev, hev, ?_, hs.bindings, ?_⟩, fun _ => ?_⟩
    · intro sid t ht
      rw [hs.memo]
      by_cases hsid : sid = sessionId
      · rw [if_pos hsid]
        exact List.mem_append_left _ ht
      · rwa [if_neg hsid]
    · intro id r hnone hr
      rcases hs.back hlaw hev hr with ⟨q, hq, -⟩ | ⟨-, -, rfl⟩
      · rw [hnone] at hq
        cases hq
      · exact ⟨rfl, rfl⟩
    · rw [hs.memo, if_pos rfl]
      exact List.mem_append_right _ (List.mem_singleton_self _)

theorem Materialized.trans {bus'' : HookBus} {sessionId : String}
    (h : bus.Materialized bus' sessionId)
    (h' : bus'.Materialized bus'' sessionId) :
    bus.Materialized bus'' sessionId := by
  refine ⟨h'.rooted, h.evolves.trans h'.evolves,
    fun sid t ht => h'.memo sid t (h.memo sid t ht),
    h'.bindings.trans h.bindings, ?_⟩
  intro id r hnone hr
  cases hq : bus'.records.get? id with
  | none => exact h'.added id r hq hr
  | some q =>
    obtain ⟨r', hr', hb⟩ := h'.evolves.kept id q hq
    cases hr.symm.trans hr'
    obtain ⟨hsid, hactive⟩ := h.added id q hnone hq
    exact ⟨hb.session.trans hsid,
      hb.active_stays (fun _ hf => hf) hactive⟩

theorem Rooted.materializeSession (h : bus.Rooted) (sessionId : String) :
    bus.Materialized (bus.materializeSession sessionId) sessionId
      ∧ ∀ t r, bus.records.get? t = some r →
        r.activationState = .pendingActivation → bus.bound r = true →
        t ∈ (bus.materializeSession sessionId).materialized sessionId := by
  have hfold : ∀ ids : List Nat, ∀ b : HookBus, b.Rooted →
      b.Materialized (ids.foldl (fun b id =>
          b.materializeTemplate sessionId id) b) sessionId
        ∧ ∀ t ∈ ids, (∃ r, b.records.get? t = some r
            ∧ r.activationState = .pendingActivation
            ∧ b.bound r = true) →
          t ∈ (ids.foldl (fun b id => b.materializeTemplate sessionId id)
            b).materialized sessionId := by
    intro ids
    induction ids with
    | nil =>
      intro b hb
      refine ⟨⟨hb, Evolves.refl _ b, fun _ _ ht => ht, rfl, ?_⟩, nofun⟩
      intro id r hnone hr
      rw [List.foldl_nil, hnone] at hr
      cases hr
    | cons i ids ih =>
      intro b hb
      obtain ⟨hm, hdue⟩ := hb.materializeTemplate sessionId i
      obtain ⟨hm', hdue'⟩ := ih _ hm.rooted
      refine ⟨hm.trans hm', fun t ht hp => ?_⟩
      rcases List.mem_cons.1 ht with rfl | ht
      · exact hm'.memo sessionId t (hdue hp)
      · refine hdue' t ht ?_
        -- the template is as pending and as bound as it was
        obtain ⟨r, hr, hp, hb⟩ := hp
        obtain ⟨r', hr', hbec⟩ := hm.evolves.kept t r hr
        refine ⟨r', hr', ?_, ?_⟩
        · rcases hbec.state with heq | ⟨hf, -⟩
          · exact heq.trans hp
          · exact hf.elim
        · unfold HookBus.bound callbackRejection at hb ⊢
          rw [hbec.handlerManifest, hm.bindings]
          exact hb
  obtain ⟨hm, hdue⟩ := hfold bus.templateOrder bus h
  exact ⟨hm, fun t r hr hp hb =>
    hdue t (h.pending t r hr hp) ⟨r, hr, hp, hb⟩⟩

@[simp] theorem materializedTemplates_deactivate
    (test : RegistrationRecord → Bool) (state : HookActivationState)
    (bus : HookBus) (ids : List Nat) :
    (deactivate test state bus ids).materializedTemplates
      = bus.materializedTemplates := by
  fun_induction deactivate test state bus ids <;> simp_all

@[simp] theorem templateOrder_deactivate (test : RegistrationRecord → Bool)
    (state : HookActivationState) (bus : HookBus) (ids : List Nat) :
    (deactivate test state bus ids).templateOrder = bus.templateOrder := by
  fun_induction deactivate test state bus ids <;> simp_all

theorem Rooted.deactivate (h : bus.Rooted) (test : RegistrationRecord → Bool)
    {state : HookActivationState} (hstate : state.over = true)
    (ids : List Nat) : (HookBus.deactivate test state bus ids).Rooted := by
  obtain ⟨hlaw, hev⟩ := deactivate_spec h.lawful test state hstate ids
  exact h.of_evolves hlaw hev (by simp) (by simp) (by simp) (by simp)

theorem Rooted.releaseRegistration (h : bus.Rooted) (id : Nat) :
    (bus.releaseRegistration id).Rooted := by
  obtain ⟨hlaw, hev⟩ := releaseRegistration_spec h.lawful id
  rcases bus.releaseRegistration_cases id with heq | ⟨r, hr, -, heq⟩
  · rw [heq]
    exact h
  · refine h.of_evolves hlaw hev ?_ ?_ ?_ ?_ <;> rw [heq] <;> simp

theorem materialized_congr
    (h : bus'.materializedTemplates = bus.materializedTemplates)
    (sessionId : String) :
    bus'.materialized sessionId = bus.materialized sessionId := by
  unfold materialized
  rw [h]

theorem Evolves.none_added {hit : Nat → HookActivationState → Prop}
    (hev : bus.Evolves hit bus') (hlaw : bus'.Lawful)
    (hcount : bus'.creationCounter = bus.creationCounter) {id : Nat}
    {r : RegistrationRecord} (hnone : bus.records.get? id = none) :
    bus'.records.get? id ≠ some r := by
  intro hr
  have := hev.fresh id r hnone hr
  have := (hlaw.keyed id r hr).2
  omega

end HookBus

-- ===== steps

def HookAction.Materializes (sessionId : String) : HookAction → Prop
  | .materializeSession id => id = sessionId
  | .dispatch _ id _ _ => id = sessionId
  | _ => False

def HookAction.Clears (sessionId : String) : HookAction → Prop
  | .clearSession id => id = sessionId
  | _ => False

namespace HookState

/-- What one step does to the registrations. -/
structure Advances (s s' : HookState) (a : HookAction) : Prop where
  rooted : s'.bus.Rooted
  evolves : s.bus.Evolves (fun id st => s.bus.Moves a id st
    ∨ st = .expired ∧ s.Once id ∧ id ∈ s.invoked) s'.bus
  invoked : ∀ id ∈ s.invoked, id ∈ s'.invoked
  memo : ∀ sid, ∀ t ∈ s.bus.materialized sid, t ∈ s'.bus.materialized sid
  added : ∀ id r, s.bus.records.get? id = none →
    s'.bus.records.get? id = some r →
    r.parentRegistrationId = none ∨ r.activationState = .active
      ∧ ∃ sid, r.sessionId = some sid ∧ a.Materializes sid

variable {a : HookAction} {as : List HookAction} {s s' : HookState}
  {sessionId : String}

theorem proceed_bus (h : s.bus.Rooted) (call : Nat) (target : Option String)
    (onceToExpire ids : List Nat) :
    (s.proceed call target onceToExpire ids).bus.Rooted
      ∧ s.bus.Evolves (fun id st => id ∈ onceToExpire ∧ st = .expired)
          (s.proceed call target onceToExpire ids).bus
      ∧ (s.proceed call target onceToExpire ids).bus.creationCounter
          = s.bus.creationCounter
      ∧ (s.proceed call target onceToExpire ids).bus.materializedTemplates
          = s.bus.materializedTemplates
      ∧ ∀ id ∈ s.invoked,
          id ∈ (s.proceed call target onceToExpire ids).invoked := by
  unfold HookState.proceed
  cases s.bus.nextHandler target ids with
  | some next =>
    exact ⟨h, HookBus.Evolves.refl _ _, rfl, rfl,
      fun id hid => List.mem_append_left _ hid⟩
  | none =>
    obtain ⟨hlaw, hev⟩ := expire_spec h.lawful onceToExpire
    refine ⟨?_, hev, by simp, by simp, fun id hid => hid⟩
    exact h.of_evolves hlaw hev (by simp) (by simp) (by simp) (by simp)

theorem advances_of_bus {bus' : HookBus} (hroot : bus'.Rooted)
    (hev : s.bus.Evolves (s.bus.Moves a) bus')
    (hcount : bus'.creationCounter = s.bus.creationCounter)
    (hmemo : bus'.materializedTemplates = s.bus.materializedTemplates) :
    s.Advances { s with bus := bus' } a := by
  refine ⟨hroot, hev.mono fun _ _ hm => Or.inl hm, fun _ hid => hid,
    fun sid t ht => HookBus.materialized_congr hmemo sid ▸ ht, ?_⟩
  intro id r hnone hr
  exact absurd hr (hev.none_added hroot.lawful hcount hnone)

theorem advances_of_materialized {bus' : HookBus}
    (hm : s.bus.Materialized bus' sessionId) (ha : a.Materializes sessionId) :
    s.Advances { s with bus := bus' } a := by
  refine ⟨hm.rooted, hm.evolves.mono fun _ _ hf => hf.elim,
    fun _ hid => hid, hm.memo, ?_⟩
  intro id r hnone hr
  obtain ⟨hsid, hactive⟩ := hm.added id r hnone hr
  exact Or.inr ⟨hactive, sessionId, hsid, ha⟩

theorem step_advances (ht : s.Tracked) (h : s.bus.Rooted)
    (hstep : hookStep s a = some s') : s.Advances s' a := by
  cases a with
  | register request surface generatedOwner =>
    cases hstep
    obtain ⟨-, hev⟩ :=
      HookBus.registerRequest_spec h.lawful request surface generatedOwner
    refine ⟨h.register request surface generatedOwner,
      hev.mono fun _ _ hf => hf.elim, fun _ hid => hid,
      fun sid t ht => HookBus.materialized_congr (s.bus.registerRequest_cases
        request surface generatedOwner).2.1 sid ▸ ht, ?_⟩
    intro id r hnone hr
    obtain ⟨-, -, -, hor⟩ := s.bus.registerRequest_cases request surface
      generatedOwner
    rcases hor with ⟨hrec, -⟩ | ⟨q, -, hparent, hrec, -⟩
    · rw [hrec, hnone] at hr
      cases hr
    · rw [hrec, Dict.get?_insert] at hr
      split at hr
      · cases hr
        exact Or.inl hparent
      · rw [hnone] at hr
        cases hr
  | materializeSession sessionId =>
    cases hstep
    exact advances_of_materialized (h.materializeSession sessionId).1 rfl
  | releaseRegistration id =>
    cases hstep
    obtain ⟨-, hev⟩ := HookBus.releaseRegistration_spec h.lawful id
    refine advances_of_bus (h.releaseRegistration id) hev ?_ ?_
    all_goals
      rcases s.bus.releaseRegistration_cases id with heq | ⟨r, -, -, heq⟩
      · rw [heq]
      · rw [heq]
        simp
  | releaseOwner sessionId owner =>
    cases hstep
    obtain ⟨-, hev⟩ := HookBus.deactivate_spec h.lawful
      (fun r => r.owner = owner) .released rfl
      (s.bus.order sessionId)
    exact advances_of_bus (h.deactivate _ rfl _) hev
      (HookBus.creationCounter_deactivate ..)
      (HookBus.materializedTemplates_deactivate ..)
  | clearSession sessionId =>
    cases hstep
    obtain ⟨-, hev⟩ := HookBus.deactivate_spec h.lawful (fun _ => true)
      .expired rfl (s.bus.order sessionId)
    exact advances_of_bus (h.deactivate _ rfl _)
      (hev.mono fun _ _ hi => ⟨hi.1.1, hi.2⟩)
      (HookBus.creationCounter_deactivate ..)
      (HookBus.materializedTemplates_deactivate ..)
  | releaseTurn sessionId turnId =>
    cases hstep
    cases turnId with
    | none => exact advances_of_bus h (HookBus.Evolves.refl _ _) rfl rfl
    | some turn =>
      obtain ⟨-, hev⟩ := HookBus.deactivate_spec h.lawful
        (fun r => r.scope.lifetime = .turn && r.turnId = some turn)
        .expired rfl (s.bus.order sessionId)
      exact advances_of_bus (h.deactivate _ rfl _) hev
        (HookBus.creationCounter_deactivate ..)
        (HookBus.materializedTemplates_deactivate ..)
  | dispatch call sessionId payload context =>
    simp only [hookStep] at hstep
    split at hstep
    · cases hstep
    cases hstep
    have hm := (h.materializeSession sessionId).1
    obtain ⟨hroot, hev, hcount, hmemo, hinv⟩ := proceed_bus (s := { s with
      bus := s.bus.materializeSession sessionId }) hm.rooted call
        payload.matchTarget [] (((s.bus.materializeSession
          sessionId).activeRecords sessionId payload context).map
            RegistrationRecord.registrationId)
    have hquiet : (s.bus.materializeSession sessionId).Evolves
        HookBus.nothing (s.dispatch call sessionId payload context).bus :=
      hev.mono fun _ _ hi => absurd hi.1 List.not_mem_nil
    refine ⟨hroot, (hm.evolves.trans hquiet).mono
      fun _ _ hf => hf.elim, hinv, fun sid t ht =>
        HookBus.materialized_congr hmemo sid ▸ hm.memo sid t ht, ?_⟩
    intro id r hnone hr
    cases hq : (s.bus.materializeSession sessionId).records.get? id with
    | none => exact absurd hr (hquiet.none_added hroot.lawful hcount hq)
    | some q =>
      obtain ⟨r', hr', hb⟩ := hquiet.kept id q hq
      cases hr.symm.trans hr'
      obtain ⟨hsid, hactive⟩ := hm.added id q hnone hq
      exact Or.inr ⟨hb.active_stays (fun _ hf => hf) hactive, sessionId,
        hb.session.trans hsid, rfl⟩
  | handlerEnds call outcome =>
    simp only [hookStep, Option.map_eq_some_iff] at hstep
    obtain ⟨d, hd, rfl⟩ := hstep
    rw [handlerEnds_eq]
    by_cases hcancel : outcome = .cancelled
    · rw [if_pos hcancel]
      refine ⟨h, HookBus.Evolves.refl _ _, fun _ hid => hid,
        fun _ _ ht => ht, ?_⟩
      intro id r hnone hr
      rw [hnone] at hr
      cases hr
    · rw [if_neg hcancel]
      obtain ⟨hroot, hev, hcount, hmemo, hinv⟩ := proceed_bus h call d.target
        (s.afterHandler d outcome) d.ahead
      refine ⟨hroot, hev.mono fun id st hi =>
        Or.inr ⟨hi.2, ht.expires hd outcome id hi.1⟩, hinv,
        fun sid t ht => HookBus.materialized_congr hmemo sid ▸ ht, ?_⟩
      intro id r hnone hr
      exact absurd hr (hev.none_added hroot.lawful hcount hnone)
  | _ =>
    cases hstep
    refine advances_of_bus ?_
      (HookBus.evolves_of_records (Nat.le_refl _) rfl) rfl rfl
    exact ⟨⟨h.lawful.keyed, h.lawful.listed, h.lawful.nodup⟩, h.placed,
      h.shape, h.sprouted, h.unique, h.pending⟩

-- ===== descendants

/-- The descendants of an open session are ACTIVE, were released, or are
once hooks that have been called. -/
def Accounted (s : HookState) (sessionId : String) : Prop :=
  ∀ id r templateId, s.bus.records.get? id = some r →
    r.DescendsFrom sessionId templateId →
    r.activationState = .active ∨ r.activationState = .released
      ∨ r.activationState = .expired ∧ r.once = true ∧ id ∈ s.invoked

/-- A session without an active descendant. -/
def Bare (s : HookState) (sessionId : String) : Prop :=
  ∀ id r templateId, s.bus.records.get? id = some r →
    r.DescendsFrom sessionId templateId → r.activationState ≠ .active

theorem Accounted.step (h : s.Accounted sessionId) (hroot : s.bus.Rooted)
    (hs : s.Advances s' a) (hopen : ¬ a.Clears sessionId) :
    s'.Accounted sessionId := by
  intro id r' templateId hr' hd'
  cases hr : s.bus.records.get? id with
  | none =>
    rcases hs.added id r' hr hr' with hp | ⟨hactive, -⟩
    · rw [hd'.1] at hp
      cases hp
    · exact Or.inl hactive
  | some r =>
    obtain ⟨q, hq, hb⟩ := hs.evolves.kept id r hr
    cases hr'.symm.trans hq
    have hd : r.DescendsFrom sessionId templateId :=
      ⟨hb.parent ▸ hd'.1, hb.session ▸ hd'.2⟩
    rw [hb.once]
    rcases hb.state with heq | ⟨hhit, -⟩
    · rw [heq]
      rcases h id r templateId hr hd with hst | hst | hst
      · exact Or.inl hst
      · exact Or.inr (Or.inl hst)
      · exact Or.inr (Or.inr ⟨hst.1, hst.2.1, hs.invoked id hst.2.2⟩)
    rcases hhit with ⟨hrel, hst⟩ | ⟨hst, ⟨p, hp, ho⟩, hinv⟩
    · -- an operation that expires registrations hits no descendant here
      cases a with
      | releaseRegistration _ => exact Or.inr (Or.inl hst)
      | releaseOwner _ _ => exact Or.inr (Or.inl hst)
      | clearSession sid =>
        have := hroot.placed sid id hrel r hr
        rw [hd.2] at this
        cases this
        exact absurd rfl hopen
      | releaseTurn sid turnId =>
        obtain ⟨-, p, hp, htest⟩ := hrel
        cases hr.symm.trans hp
        have hl := (hroot.shape id r templateId hr hd.1).1
        simp [hl] at htest
      | _ => exact hrel.elim
    · cases hr.symm.trans hp
      exact Or.inr (Or.inr ⟨hst, ho, hs.invoked id hinv⟩)

theorem Bare.step (h : s.Bare sessionId) (hs : s.Advances s' a)
    (hnot : ¬ a.Materializes sessionId) : s'.Bare sessionId := by
  intro id r' templateId hr' hd' hactive
  cases hr : s.bus.records.get? id with
  | none =>
    rcases hs.added id r' hr hr' with hp | ⟨-, sid, hsid, hm⟩
    · rw [hd'.1] at hp
      cases hp
    · rw [hd'.2] at hsid
      cases hsid
      exact hnot hm
  | some r =>
    obtain ⟨q, hq, hb⟩ := hs.evolves.kept id r hr
    cases hr'.symm.trans hq
    exact h id r templateId hr ⟨hb.parent ▸ hd'.1, hb.session ▸ hd'.2⟩
      (hb.active_before hactive)

theorem bare_clearSession (h : s.bus.Rooted) (sessionId : String) :
    Bare { s with bus := s.bus.clearSession sessionId } sessionId := by
  intro id r' templateId hr' hd'
  have hget := HookBus.get?_deactivate (fun _ => true) .expired s.bus
    (s.bus.order sessionId) nofun id
  obtain ⟨r, hr, hr'⟩ := Option.map_eq_some_iff.1 (hget.symm.trans hr')
  by_cases hhit : id ∈ s.bus.order sessionId ∧ r.active = true ∧ true = true
  · rw [if_pos hhit] at hr'
    rw [← hr']
    exact nofun
  · rw [if_neg hhit] at hr'
    subst hr'
    obtain ⟨-, sid, hsid, hid, -⟩ := h.shape id r templateId hr hd'.1
    rw [hd'.2] at hsid
    cases hsid
    exact fun hactive => hhit ⟨hid, active_iff.2 hactive, rfl⟩

/-- The session has one descendant of the template, which is ACTIVE
unless it was released, or expired as a once hook that was called. -/
def HasDescendant (s : HookState) (sessionId : String)
    (templateId : Nat) : Prop :=
  ∃ id r, s.bus.records.get? id = some r
    ∧ r.DescendsFrom sessionId templateId
    ∧ (r.activationState = .active ∨ r.activationState = .released
      ∨ r.activationState = .expired ∧ r.once = true ∧ id ∈ s.invoked)
    ∧ ∀ id' r', s.bus.records.get? id' = some r' →
      r'.DescendsFrom sessionId templateId → id' = id

-- ===== runs

theorem sound_of_run (h : hookSystem.run {} as = some s) :
    s.Tracked ∧ s.bus.Rooted :=
  System.run_invariant (M := hookSystem)
    (I := fun u => u.Tracked ∧ u.bus.Rooted)
    (fun _ _ _ hu hstep =>
      ⟨tracked_step hu.1 hstep, (step_advances hu.1 hu.2 hstep).rooted⟩)
    ⟨tracked_init, HookBus.rooted_init⟩ h

/-- A property of the state and its registrations that every step with a
condition keeps, along a run. -/
theorem keeps_of_steps {P : HookState → Prop} {C : HookAction → Prop}
    (hstep : ∀ s s' a, P s → s.Tracked → s.bus.Rooted →
      s.Advances s' a → C a → P s') {t : HookState} (hs : s.Tracked)
    (hroot : s.bus.Rooted) (hP : P s) (hall : ∀ a ∈ as, C a)
    (h : hookSystem.run s as = some t) : P t := by
  induction as generalizing s with
  | nil =>
    cases h
    exact hP
  | cons a as ih =>
    obtain ⟨m, hm, hrest⟩ := System.run_cons_eq_some.1 h
    have hadv := step_advances hs hroot hm
    exact ih (tracked_step hs hm) hadv.rooted
      (hstep s m a hP hs hroot hadv (hall a List.mem_cons_self))
      (fun b hb => hall b (List.mem_cons_of_mem _ hb)) hrest

/-- The history of a bus goes one way: a registration is never removed or
replaced, what has ended stays so, a pending one never becomes active, new
ones have new ids, and a call is never forgotten. -/
theorem registrations_one_way {u v : HookState}
    (h : hookSystem.Passes {} as u v) :
    u.bus.Evolves (fun _ _ => True) v.bus
      ∧ ∀ id ∈ u.invoked, id ∈ v.invoked := by
  obtain ⟨p, q, r, -, hp, hq⟩ := h
  obtain ⟨ht, hroot⟩ := sound_of_run hp
  refine keeps_of_steps (P := fun t => u.bus.Evolves (fun _ _ => True) t.bus
    ∧ ∀ id ∈ u.invoked, id ∈ t.invoked) (C := fun _ => True) ?_ ht hroot
    ⟨.refl _ _, fun _ hid => hid⟩ (fun _ _ => trivial) hq
  intro t t' a ⟨hev, hinvoked⟩ _ _ hadv _
  exact ⟨hev.trans (hadv.evolves.mono fun _ _ _ => trivial),
    fun id hid => hadv.invoked id (hinvoked id hid)⟩

theorem accounted_of_run (hopen : ∀ a ∈ as, ¬ a.Clears sessionId)
    (h : hookSystem.run {} as = some s) : s.Accounted sessionId := by
  refine keeps_of_steps (P := fun u => u.Accounted sessionId)
    (C := fun a => ¬ a.Clears sessionId)
    (fun u u' a hP _ hroot hadv hC => hP.step hroot hadv hC)
    tracked_init HookBus.rooted_init ?_ hopen h
  intro id r templateId hr
  cases hr

theorem memo_of_step (h : s.bus.Rooted) (hstep : hookStep s a = some s')
    (ha : a.Materializes sessionId) {t : Nat} {template : RegistrationRecord}
    (htemplate : s.bus.records.get? t = some template)
    (hp : template.activationState = .pendingActivation)
    (hb : s.bus.bound template = true) :
    t ∈ s'.bus.materialized sessionId := by
  have hm := (h.materializeSession sessionId).2 t template htemplate hp hb
  cases a with
  | materializeSession sid =>
    cases hstep
    cases ha
    exact hm
  | dispatch call sid payload context =>
    simp only [hookStep] at hstep
    split at hstep
    · cases hstep
    cases hstep
    cases ha
    obtain ⟨-, -, -, hmemo, -⟩ := proceed_bus (s := { s with
      bus := s.bus.materializeSession sessionId })
      (h.materializeSession sessionId).1.rooted call payload.matchTarget []
      (((s.bus.materializeSession sessionId).activeRecords sessionId
        payload context).map RegistrationRecord.registrationId)
    exact HookBus.materialized_congr hmemo sessionId ▸ hm
  | _ => exact ha.elim

theorem hasDescendant_of_run {p q : List HookAction} {t : HookState}
    {templateId : Nat} {template : RegistrationRecord}
    (hp : hookSystem.run {} p = some s) (hstep : hookStep s a = some s')
    (hq : hookSystem.run s' q = some t) (ha : a.Materializes sessionId)
    (hopen : ∀ b ∈ p ++ a :: q, ¬ b.Clears sessionId)
    (htemplate : s.bus.records.get? templateId = some template)
    (hpending : template.activationState = .pendingActivation)
    (hbound : s.bus.bound template = true) :
    t.HasDescendant sessionId templateId := by
  obtain ⟨htrack, hroot⟩ := sound_of_run hp
  have hadv := step_advances htrack hroot hstep
  have hmemo : templateId ∈ t.bus.materialized sessionId := by
    refine keeps_of_steps
      (P := fun u => templateId ∈ u.bus.materialized sessionId)
      (C := fun _ => True) (fun u u' b hP _ _ hu _ => hu.memo _ _ hP)
      (tracked_step htrack hstep) hadv.rooted ?_ (fun _ _ => trivial) hq
    exact memo_of_step hroot hstep ha htemplate hpending hbound
  have hrun : hookSystem.run {} (p ++ a :: q) = some t := by
    refine System.run_append_eq_some.2 ⟨s, hp, ?_⟩
    rw [System.run_cons_of_step (M := hookSystem) hstep]
    exact hq
  obtain ⟨-, hroot'⟩ := sound_of_run hrun
  obtain ⟨id, r, hr, hd⟩ := hroot'.sprouted sessionId templateId hmemo
  exact ⟨id, r, hr, hd,
    accounted_of_run hopen hrun id r templateId hr hd,
    fun id' r' hr' hd' =>
      hroot'.unique id' id r' r sessionId templateId hr' hr hd' hd⟩

theorem bare_of_run {p q : List HookAction} {t : HookState}
    (hp : hookSystem.run {} p = some s)
    (hstep : hookStep s (.clearSession sessionId) = some s')
    (hq : hookSystem.run s' q = some t)
    (hclosed : ∀ b ∈ q, ¬ b.Materializes sessionId) : t.Bare sessionId := by
  obtain ⟨htrack, hroot⟩ := sound_of_run hp
  have hadv := step_advances htrack hroot hstep
  refine keeps_of_steps (P := fun u => u.Bare sessionId)
    (C := fun b => ¬ b.Materializes sessionId)
    (fun u u' b hP _ _ hu hb => hP.step hu hb)
    (tracked_step htrack hstep) hadv.rooted ?_ hclosed hq
  cases hstep
  exact bare_clearSession hroot sessionId

end HookState

-- ===== sessions

def SessionAction.Materializes (sessionId : String) :
    SessionAction → Prop
  | .bus a => a.Materializes sessionId
  | .start id _ => id = sessionId
  | .close id _ _ => id = sessionId
  | .closed _ => False

def SessionAction.Clears (sessionId : String) : SessionAction → Prop
  | .bus a => a.Clears sessionId
  | .start .. => False
  | .close .. => False
  | .closed id => id = sessionId

/-- The template is registered, bound and not released. -/
def SessionHooks.Live (s : SessionHooks) (templateId : Nat) : Prop :=
  ∃ template, s.hooks.bus.records.get? templateId = some template
    ∧ template.activationState = .pendingActivation
    ∧ s.hooks.bus.bound template = true

variable {sessionId : String}

theorem SessionAction.materializes_head {a : SessionAction}
    (h : a.Materializes sessionId) :
    ∃ b rest, a.hookActions = b :: rest ∧ b.Materializes sessionId := by
  cases a with
  | bus a => exact ⟨a, [], rfl, h⟩
  | closed id => exact h.elim
  | _ => exact ⟨_, _, rfl, h⟩

theorem SessionAction.clears_head {a : SessionAction}
    (h : a.Clears sessionId) : a.hookActions = [.clearSession sessionId] := by
  cases a with
  | bus a =>
    cases a with
    | clearSession id =>
      cases h
      rfl
    | _ => exact h.elim
  | closed id =>
    cases h
    rfl
  | _ => exact h.elim

theorem SessionAction.not_clears {as : List SessionAction}
    (h : ∀ a ∈ as, ¬ a.Clears sessionId) :
    ∀ b ∈ as.flatMap SessionAction.hookActions, ¬ b.Clears sessionId := by
  intro b hb hclears
  obtain ⟨a, ha, hba⟩ := List.mem_flatMap.1 hb
  refine h a ha ?_
  cases a with
  | bus a =>
    rw [List.mem_singleton.1 hba] at hclears
    exact hclears
  | start id call =>
    rcases List.mem_pair.1 hba with rfl | rfl
    · exact hclears.elim
    · exact hclears.elim
  | close id call status =>
    rw [List.mem_singleton.1 hba] at hclears
    exact hclears.elim
  | closed id =>
    rw [List.mem_singleton.1 hba] at hclears
    exact hclears

theorem SessionAction.not_materializes {as : List SessionAction}
    (h : ∀ a ∈ as, ¬ a.Materializes sessionId) :
    ∀ b ∈ as.flatMap SessionAction.hookActions,
      ¬ b.Materializes sessionId := by
  intro b hb hmat
  obtain ⟨a, ha, hba⟩ := List.mem_flatMap.1 hb
  refine h a ha ?_
  cases a with
  | bus a =>
    rw [List.mem_singleton.1 hba] at hmat
    exact hmat
  | start id call =>
    rcases List.mem_pair.1 hba with rfl | rfl
    · exact hmat
    · exact hmat
  | close id call status =>
    rw [List.mem_singleton.1 hba] at hmat
    exact hmat
  | closed id =>
    rw [List.mem_singleton.1 hba] at hmat
    exact hmat.elim

section FixedRuns

/-! One template, bound from the start. -/

def templateRequest : HookRegistrationRequest :=
  { phase := "Stop", scope := { lifetime := .sessionTemplate }
    handler := { kind := .callback, callback := true } }

def hostSurface : RegistrationSurface :=
  { sourceKind := .hostApi, defaultScopeLifetime := .sessionTemplate }

def registerTemplate : SessionAction :=
  .bus (.register templateRequest hostSurface "host")

def registeredLate : List SessionAction :=
  [.start "session" 0, registerTemplate]

def restarted : List SessionAction :=
  [registerTemplate, .start "session" 0, .close "session" 1 "completed",
    .closed "session", .start "session" 2]

theorem registrations_one_way_cleared : ∃ u v : HookState,
    (∃ r, u.bus.records.get? 1 = some r)
      ∧ u.bus.Evolves (fun _ _ => True) v.bus := by
  have hpass : hookSystem.Passes {}
      [.register templateRequest hostSurface "host", .clearSession "session"]
      _ _ := ⟨[_], [_], [], rfl, rfl, rfl⟩
  exact ⟨_, _, ⟨_, rfl⟩, (HookState.registrations_one_way hpass).1⟩

end FixedRuns

end WeaveRuntime.Hooks
