/-
A retry repeats the request it retries, where nothing is lost with the
override.

The override of a request is consumed by the attempt it is sent with: it
is cleared from the private context and from the recovery state before the
model is called. What a failed attempt leaves for the next request is what
its tools put into the private context, and the override of the decision.
The fields that neither sets fall back to what the turn has for them.

# The run

`Retry` is an iteration that fails and is retried: the request, the
attempt, the decision, and the request of the next iteration. From the
time the failed request is issued no hook returns an override (`Silent`);
the pieces of an iteration are followed by what they leave of the override
that is pending and of the one that is consumed (`Unmoved`).
-/
import WeaveRuntime.TurnEngine.Requests

namespace WeaveRuntime.TurnEngine

open Lib Python

variable {B W M Q E : Type}

-- ========= an override

theorem coerceText_coerceText (value : Option String) :
    coerceText (coerceText value) = coerceText value := by
  cases value with
  | none => rfl
  | some text =>
    by_cases h : pyStrip text = ""
    · simp [coerceText, h]
    · simp [coerceText, h, pyStrip_pyStrip]

namespace RequestOverrideState

/-- The override with its texts stripped, as it is read back. -/
def stripped (o : RequestOverrideState) (sources : List String) :
    RequestOverrideState :=
  { o with
    requestedModel := coerceText o.requestedModel
    requestedModelRoute := coerceText o.requestedModelRoute
    source := coerceText o.source
    sources := sources }

theorem coerceStored_eq (o : RequestOverrideState) :
    ∃ sources, coerceStored o = (o.stripped sources).orNone := by
  unfold coerceStored
  extract_lets state
  split
  · next source _ =>
    split
    · exact ⟨[source], rfl⟩
    · exact ⟨o.sources, rfl⟩
  · exact ⟨o.sources, rfl⟩

variable {o : RequestOverrideState}

theorem orNone_eq_none (h : o.orNone = none) : o.truthy = false := by
  unfold orNone at h
  split at h
  · cases h
  · next htruthy => exact Bool.eq_false_iff.2 htruthy

/-- An override as it is read back from where it is stored. -/
structure Stored (o : RequestOverrideState) : Prop where
  truthy : o.truthy = true
  model : coerceText o.requestedModel = o.requestedModel
  route : coerceText o.requestedModelRoute = o.requestedModelRoute

theorem stored_of_stripped {o' : RequestOverrideState} {sources : List String}
    (h : (o.stripped sources).orNone = some o') : o'.Stored := by
  obtain ⟨htruthy, rfl⟩ := orNone_eq_some.1 h
  exact ⟨htruthy, coerceText_coerceText _, coerceText_coerceText _⟩

theorem unset_of_not_truthy (h : o.truthy = false) :
    o.requestedModel = none ∧ o.requestedEffort = .none
      ∧ o.maxOutputTokensOverride = none ∧ o.requestedModelRoute = none
      ∧ o.invocationModeOverride = .none := by
  unfold truthy at h
  simp only [Bool.or_eq_false_iff, Bool.not_eq_false',
    Option.isSome_eq_false_iff, Option.isNone_iff_eq_none,
    isNone_eq_true] at h
  obtain ⟨⟨⟨⟨hmodel, heffort⟩, hroute⟩, hmode⟩, htokens⟩ := h
  exact ⟨hmodel, heffort, htokens, hroute, hmode⟩

end RequestOverrideState

theorem toRequest_eq (skill : SkillRequestOverrideState) :
    ∃ o : RequestOverrideState,
      skill.toRequest = (if skill.truthy then o.orNone else none)
        ∧ o.requestedModel = skill.requestedModel
        ∧ o.requestedEffort = skill.requestedEffort
        ∧ o.maxOutputTokensOverride = none ∧ o.requestedModelRoute = none
        ∧ o.invocationModeOverride = .none :=
  ⟨_, rfl, rfl, rfl, rfl, rfl, rfl⟩

theorem stored_toRequest {skill : SkillRequestOverrideState}
    {o : RequestOverrideState}
    (h : skill.coerceStored.bind SkillRequestOverrideState.toRequest
      = some o) :
    o.Stored ∧ o.requestedModel = coerceText skill.requestedModel
      ∧ o.requestedEffort = skill.requestedEffort
      ∧ o.maxOutputTokensOverride = none ∧ o.requestedModelRoute = none
      ∧ o.invocationModeOverride = .none := by
  obtain ⟨coerced, hcoerced, h⟩ := Option.bind_eq_some_iff.1 h
  unfold SkillRequestOverrideState.coerceStored
    SkillRequestOverrideState.orNone at hcoerced
  split at hcoerced
  · next htruthy =>
    cases hcoerced
    obtain ⟨request, heq, hmodel, heffort, hrest⟩ := toRequest_eq
      { skill with
        requestedModel := coerceText skill.requestedModel
        sourceSkill := coerceText skill.sourceSkill }
    rw [heq, if_pos htruthy] at h
    obtain ⟨hset, rfl⟩ := RequestOverrideState.orNone_eq_some.1 h
    refine ⟨⟨hset, ?_, ?_⟩, hmodel, heffort, hrest⟩
    · rw [hmodel]
      exact coerceText_coerceText _
    · rw [hrest.2.1]
      rfl
  · cases hcoerced

namespace PrivateContext

theorem stored_pendingOverride {c : PrivateContext} {o : RequestOverrideState}
    (h : c.pendingOverride = some o) : o.Stored := by
  unfold pendingOverride at h
  cases hrequest : c.requestOverride.bind
      RequestOverrideState.coerceStored with
  | some stored =>
    rw [hrequest] at h
    cases h
    obtain ⟨request, -, hstored⟩ := Option.bind_eq_some_iff.1 hrequest
    obtain ⟨sources, heq⟩ := RequestOverrideState.coerceStored_eq request
    exact RequestOverrideState.stored_of_stripped (heq ▸ hstored)
  | none =>
    rw [hrequest, Option.none_or, Option.bind_assoc] at h
    obtain ⟨skill, -, h⟩ := Option.bind_eq_some_iff.1 h
    exact (stored_toRequest h).1

/-- A skill override that is written beside an override without a field
set sets none either. -/
theorem toRequest_of_unset {o : RequestOverrideState}
    (h : o.coerceStored = none) :
    (((SkillRequestOverrideState.ofRequest o).bind
      SkillRequestOverrideState.coerceStored).bind
        SkillRequestOverrideState.toRequest) = none := by
  obtain ⟨sources, heq⟩ := RequestOverrideState.coerceStored_eq o
  obtain ⟨hmodel, heffort, -, -, -⟩ :=
    RequestOverrideState.unset_of_not_truthy
      (RequestOverrideState.orNone_eq_none (heq ▸ h))
  cases hback : (((SkillRequestOverrideState.ofRequest o).bind
      SkillRequestOverrideState.coerceStored).bind
        SkillRequestOverrideState.toRequest) with
  | none => rfl
  | some back =>
    exfalso
    rw [Option.bind_assoc] at hback
    obtain ⟨skill, hskill, hback⟩ := Option.bind_eq_some_iff.1 hback
    obtain ⟨hstored, hbackmodel, hbackeffort, htokens, hroute, hmode⟩ :=
      stored_toRequest hback
    unfold SkillRequestOverrideState.ofRequest
      SkillRequestOverrideState.orNone at hskill
    extract_lets at hskill
    split at hskill
    · cases hskill
      have htruthy := hstored.truthy
      have hnone : back.requestedModel = none := hbackmodel.trans hmodel
      have hunset : back.requestedEffort = .none :=
        hbackeffort.trans heffort
      rw [RequestOverrideState.truthy, hnone, hunset, htokens, hroute,
        hmode] at htruthy
      cases htruthy
    · cases hskill

theorem pendingOverride_applyOverride (c : PrivateContext)
    (o : RequestOverrideState) :
    (c.applyOverride o).pendingOverride
      = (RequestOverrideState.merge c.pendingOverride (some o)).bind
          RequestOverrideState.coerceStored := by
  unfold applyOverride
  cases hmerge : RequestOverrideState.merge c.pendingOverride (some o) with
  | none => rfl
  | some merged =>
    unfold pendingOverride
    cases hcoerced : merged.coerceStored with
    | none =>
      simp only [Option.bind_some, hcoerced, Option.none_or]
      exact toRequest_of_unset hcoerced
    | some back => simp only [Option.bind_some, hcoerced, Option.some_or]

end PrivateContext

-- ======== the settings

/-- The settings agree on every field that the override leaves alone. -/
structure SameExcept (o : RequestOverrideState) (r r' : RequestSettings) :
    Prop where
  model : o.requestedModel = none → r'.model = r.model
  effort : o.requestedEffort = .none → r'.effort = r.effort
  tokens : o.maxOutputTokensOverride = none →
    r'.maxOutputTokens = r.maxOutputTokens
  route : o.requestedModelRoute = none →
    r'.requestedModelRoute = r.requestedModelRoute
  mode : o.invocationModeOverride = .none →
    r'.invocationMode = r.invocationMode

namespace SameExcept

variable {o : RequestOverrideState} {r r' r'' : RequestSettings}

theorem refl (o : RequestOverrideState) (r : RequestSettings) :
    SameExcept o r r :=
  ⟨fun _ => rfl, fun _ => rfl, fun _ => rfl, fun _ => rfl, fun _ => rfl⟩

theorem symm (h : SameExcept o r r') : SameExcept o r' r :=
  ⟨fun ho => (h.model ho).symm, fun ho => (h.effort ho).symm,
    fun ho => (h.tokens ho).symm, fun ho => (h.route ho).symm,
    fun ho => (h.mode ho).symm⟩

theorem trans (h : SameExcept o r r') (h' : SameExcept o r' r'') :
    SameExcept o r r'' :=
  ⟨fun ho => (h'.model ho).trans (h.model ho),
    fun ho => (h'.effort ho).trans (h.effort ho),
    fun ho => (h'.tokens ho).trans (h.tokens ho),
    fun ho => (h'.route ho).trans (h.route ho),
    fun ho => (h'.mode ho).trans (h.mode ho)⟩

end SameExcept

theorem settings_orNone (d : RequestDefaults) (o : RequestOverrideState) :
    d.settings o.orNone = d.settings (some o) := by
  unfold RequestOverrideState.orNone
  split
  · rfl
  · next htruthy =>
    obtain ⟨hmodel, heffort, htokens, hroute, hmode⟩ :=
      RequestOverrideState.unset_of_not_truthy (Bool.eq_false_iff.2 htruthy)
    simp only [RequestDefaults.settings, Option.getD_some, Option.getD_none,
      hmodel, heffort, htokens, hroute, hmode]

theorem sameExcept_applyOverride (d : RequestDefaults) (c : PrivateContext)
    (o : RequestOverrideState) :
    SameExcept o (d.settings c.pendingOverride)
      (d.settings (c.applyOverride o).pendingOverride) := by
  rw [PrivateContext.pendingOverride_applyOverride]
  cases hpending : c.pendingOverride with
  | none =>
    obtain ⟨sources, heq⟩ := RequestOverrideState.coerceStored_eq o
    have hback : d.settings ((RequestOverrideState.merge none (some o)).bind
        RequestOverrideState.coerceStored)
        = d.settings (some (o.stripped sources)) := by
      rw [← settings_orNone, ← heq]
      rfl
    rw [hback]
    refine ⟨fun ho => ?_, fun ho => ?_, fun ho => ?_, fun ho => ?_,
      fun ho => ?_⟩
    · simp [RequestDefaults.settings, RequestOverrideState.stripped, ho,
        coerceText]
    · simp [RequestDefaults.settings, RequestOverrideState.stripped, ho]
    · simp [RequestDefaults.settings, RequestOverrideState.stripped, ho]
    · simp [RequestDefaults.settings, RequestOverrideState.stripped, ho,
        coerceText]
    · simp [RequestDefaults.settings, RequestOverrideState.stripped, ho]
  | some current =>
    have hstored := PrivateContext.stored_pendingOverride hpending
    have hmerge : RequestOverrideState.merge (some current) (some o)
        = some (RequestOverrideState.combine current o) :=
      if_pos (RequestOverrideState.truthy_combine _ _ (.inl hstored.truthy))
    obtain ⟨sources, heq⟩ := RequestOverrideState.coerceStored_eq
      (RequestOverrideState.combine current o)
    rw [hmerge, Option.bind_some, heq, settings_orNone]
    refine ⟨fun ho => ?_, fun ho => ?_, fun ho => ?_, fun ho => ?_,
      fun ho => ?_⟩
    · simp [RequestDefaults.settings, RequestOverrideState.stripped,
        RequestOverrideState.combine, ho, hstored.model]
    · simp [RequestDefaults.settings, RequestOverrideState.stripped,
        RequestOverrideState.combine, ho]
    · simp [RequestDefaults.settings, RequestOverrideState.stripped,
        RequestOverrideState.combine, ho]
    · simp [RequestDefaults.settings, RequestOverrideState.stripped,
        RequestOverrideState.combine, ho, hstored.route]
    · simp [RequestDefaults.settings, RequestOverrideState.stripped,
        RequestOverrideState.combine, ho]

-- ======== silent hooks

/-- From these states of the bus no hook returns an override. -/
def Hooks.Mute (hooks : Hooks B M Q) (quiet : B → Prop) : Prop :=
  ∀ payload b, quiet b →
    quiet ((hooks.dispatch payload).run b).2
      ∧ (hooks.dispatch payload).Yields b fun calls _ =>
        ∀ call ∈ calls, ∀ effect ∈ call.effects,
          effect.requestOverride = none

/-- From now on no hook returns an override. -/
def Hooks.Silent (hooks : Hooks B M Q) (b : B) : Prop :=
  ∃ quiet, hooks.Mute quiet ∧ quiet b

theorem Hooks.Silent.dispatched {hooks : Hooks B M Q} {b : B}
    (h : hooks.Silent b) (payload : HookPayload M Q) :
    hooks.Silent ((hooks.dispatch payload).run b).2 := by
  obtain ⟨quiet, hmute, hquiet⟩ := h
  exact ⟨quiet, hmute, (hmute payload b hquiet).1⟩

/-- Nothing has changed of the override that is pending and of the one
that is consumed, and silent hooks stay silent. -/
structure Unmoved (hooks : Hooks B M Q) (s t : TurnRun B W M Q) : Prop where
  silent : hooks.Silent s.bus → hooks.Silent t.bus
  pending : t.loop.privateContext.pendingOverride
    = s.loop.privateContext.pendingOverride
  consumed : t.loop.consumedRequestOverride = s.loop.consumedRequestOverride

namespace Unmoved

variable {hooks : Hooks B M Q}

theorem refl (s : TurnRun B W M Q) : Unmoved hooks s s := ⟨id, rfl, rfl⟩

theorem trans (s t u : TurnRun B W M Q) (h : Unmoved hooks s t)
    (h' : Unmoved hooks t u) : Unmoved hooks s u :=
  ⟨fun hs => h'.silent (h.silent hs), h'.pending.trans h.pending,
    h'.consumed.trans h.consumed⟩

theorem get (hooks : Hooks B M Q) {A : Type} (f : TurnLoopState W M Q → A) :
    (TurnRun.get f : TurnM B W M Q A).Evolves (Unmoved hooks) :=
  Method.evolves_read refl _

theorem modify (hooks : Hooks B M Q)
    {f : TurnLoopState W M Q → TurnLoopState W M Q}
    (hpending : ∀ l, (f l).privateContext.pendingOverride
      = l.privateContext.pendingOverride)
    (hconsumed : ∀ l,
      (f l).consumedRequestOverride = l.consumedRequestOverride) :
    (TurnRun.modify f : TurnM B W M Q Unit).Evolves (Unmoved hooks) :=
  Method.evolves_write fun s => ⟨id, hpending s.loop, hconsumed s.loop⟩

theorem emit (hooks : Hooks B M Q) (event : TurnStreamEvent M Q) :
    (TurnRun.emit event : TurnM B W M Q Unit).Evolves (Unmoved hooks) :=
  modify hooks (fun _ => rfl) fun _ => rfl

theorem commit (hooks : Hooks B M Q) (messages : List M) :
    (TurnRun.commit messages : TurnM B W M Q Unit).Evolves (Unmoved hooks) :=
  modify hooks (fun _ => rfl) fun _ => rfl

theorem call (hooks : Hooks B M Q) {A : Type} (m : Method W String A) :
    (TurnRun.call m : TurnM B W M Q A).Evolves (Unmoved hooks) :=
  Method.evolves_within (fun _ _ => ⟨id, rfl, rfl⟩) m

theorem matching (payload : HookPayload M Q) :
    (TurnRun.matching hooks payload
      : TurnM B W M Q _).Evolves (Unmoved hooks) := by
  apply Method.evolves_bind trans
  · intro s
    exact ⟨fun hs => hs.dispatched payload, rfl, rfl⟩
  · intro calls
    apply Method.evolves_bind trans
    · exact modify hooks (fun _ => rfl) fun _ => rfl
    · exact fun _ => Method.evolves_pure refl calls

theorem dispatch (payload : HookPayload M Q) :
    (TurnRun.dispatch hooks payload
      : TurnM B W M Q _).Evolves (Unmoved hooks) := by
  apply Method.evolves_bind trans (matching payload)
  intro calls
  exact Method.evolves_bind trans (get hooks _)
    fun _ => Method.evolves_pure refl _

theorem dispatchTool (payload : HookPayload M Q) :
    (TurnRun.dispatchTool hooks payload
      : TurnM B W M Q _).Evolves (Unmoved hooks) :=
  Method.evolves_bind trans (matching payload)
    fun _ => Method.evolves_pure refl _

theorem asking {A : Type} (m : W → Asking W M Q A) :
    (TurnRun.asking hooks m : TurnM B W M Q A).Evolves (Unmoved hooks) := by
  apply Method.evolves_bind trans (get hooks _)
  intro world
  apply Method.evolves_bind trans
  · exact Resumption.evolves_run refl trans dispatchTool _
  · intro outcome
    apply Method.evolves_bind trans
    · exact modify hooks (fun _ => rfl) fun _ => rfl
    · exact fun _ => Method.evolves_lift refl _

theorem refinePrompt (hooks : Hooks B M Q) (env : Collaborators W M Q)
    (prepared : PreparedSummary) (additional : List String) :
    (TurnRun.refinePrompt env prepared additional
      : TurnM B W M Q _).Evolves (Unmoved hooks) := by
  unfold TurnRun.refinePrompt
  split
  · exact Method.evolves_pure refl prepared
  · exact call hooks _

theorem announceCompaction (summaryId : Option String) :
    (TurnRun.announceCompaction hooks summaryId
      : TurnM B W M Q Unit).Evolves (Unmoved hooks) := by
  unfold TurnRun.announceCompaction
  cases summaryId with
  | none => exact Method.evolves_pure refl ()
  | some id =>
    exact Method.evolves_bind trans (dispatch _)
      fun _ => Method.evolves_pure refl ()

theorem commitCompaction (prepared : PreparedContext M) :
    (TurnRun.commitCompaction hooks prepared
      : TurnM B W M Q Unit).Evolves (Unmoved hooks) := by
  unfold TurnRun.commitCompaction
  cases prepared.transcriptMessages with
  | none => exact Method.evolves_pure refl ()
  | some messages =>
    apply Method.evolves_bind trans
    · exact modify hooks (fun _ => rfl) fun _ => rfl
    · intro _
      exact Method.evolves_bind trans
        (announceCompaction prepared.summaryId) fun _ => emit hooks _

theorem prepareContext (env : Collaborators W M Q) :
    (TurnRun.prepareContext hooks env
      : TurnM B W M Q _).Evolves (Unmoved hooks) := by
  apply Method.evolves_bind trans (get hooks _)
  intro messages
  apply Method.evolves_bind trans (dispatch _)
  intro _
  apply Method.evolves_bind trans (get hooks _)
  intro privateContext
  apply Method.evolves_bind trans (call hooks _)
  intro prepared
  apply Method.evolves_bind trans (commitCompaction prepared)
  intro _
  apply Method.evolves_bind trans
  · exact modify hooks (fun _ => rfl) fun _ => rfl
  · exact fun _ => Method.evolves_pure refl prepared

end Unmoved

-- ========= the request

theorem requestOverride_of_silent {calls : List (HookMatch M)}
    (h : ∀ call ∈ calls, ∀ effect ∈ call.effects,
      effect.requestOverride = none) (atStop : Bool) (dispatchId : Nat) :
    (dispatchResult atStop dispatchId calls).requestOverride = none := by
  unfold dispatchResult
  refine List.foldlRecOn (motive := fun acc => acc = none) _ _ rfl
    fun acc hacc effect heffect => ?_
  obtain ⟨call, hcall, hmem⟩ := List.mem_flatMap.1 heffect
  rw [hacc, h call hcall effect hmem]
  rfl

namespace TurnRun

variable {hooks : Hooks B M Q}

theorem dispatch_yields (payload : HookPayload M Q) (s : TurnRun B W M Q) :
    (dispatch hooks payload).Yields s fun result t =>
      Unmoved hooks s t
        ∧ (hooks.Silent s.bus → result.requestOverride = none) := by
  have hmatching : (matching hooks payload).Yields s fun calls _ =>
      hooks.Silent s.bus → ∀ call ∈ calls, ∀ effect ∈ call.effects,
        effect.requestOverride = none := by
    refine Method.yields_bind (P := fun calls _ => hooks.Silent s.bus →
      ∀ call ∈ calls, ∀ effect ∈ call.effects,
        effect.requestOverride = none) ?_ ?_
    · refine (Method.yields_within (P := fun calls _ =>
        hooks.Silent s.bus → ∀ call ∈ calls, ∀ effect ∈ call.effects,
          effect.requestOverride = none) ?_).mono fun calls t h => ?_
      · intro calls b hrun hs
        obtain ⟨quiet, hmute, hquiet⟩ := hs
        exact (hmute payload s.bus hquiet).2 calls b hrun
      · obtain ⟨u, hu, -⟩ := h
        exact hu
    · intro calls t hcalls
      exact Method.yields_write_bind (Method.yields_pure hcalls)
  have hresult : (dispatch hooks payload).Yields s fun result _ =>
      hooks.Silent s.bus → result.requestOverride = none := by
    refine Method.yields_bind hmatching fun calls u hcalls => ?_
    exact Method.yields_read_bind (Method.yields_pure fun hs =>
      requestOverride_of_silent (hcalls hs) _ _)
  exact fun result t hrun =>
    ⟨(Unmoved.dispatch payload).yields s result t hrun,
      hresult result t hrun⟩

theorem call_yields (hooks : Hooks B M Q) {A : Type}
    {m : Method W String A} {P : A → Prop}
    (h : ∀ w, m.Yields w fun a _ => P a) (s : TurnRun B W M Q) :
    (call m : TurnM B W M Q A).Yields s fun a t =>
      Unmoved hooks s t ∧ P a := by
  intro a t hrun
  have hwithin : (call m : TurnM B W M Q A).Yields s fun a t =>
      ∃ u, P a ∧ t = { s with loop := { s.loop with world := u } } :=
    Method.yields_within (h s.loop.world)
  obtain ⟨u, hu, -⟩ := hwithin a t hrun
  exact ⟨(Unmoved.call hooks m).yields s a t hrun, hu⟩

end TurnRun

/-- Overrides come from skills, hooks and resumed sessions: neither the
sidecars nor the runtime's own metadata bring one or take one away. -/
structure Collaborators.KeepsOverrides (env : Collaborators W M Q) :
    Prop where
  joinSidecars : ∀ c w, (env.joinSidecars c).Yields w fun c' _ =>
    c'.pendingOverride = c.pendingOverride
  effective : ∀ w c, (env.effective w c).pendingOverride = c.pendingOverride

structure Built (hooks : Hooks B M Q) (d : RequestDefaults)
    (s : TurnRun B W M Q) (settings : RequestSettings)
    (t : TurnRun B W M Q) : Prop where
  settings : settings = d.settings t.loop.consumedRequestOverride
  unconsumed : t.loop.consumedRequestOverride = none →
    t.loop.privateContext.pendingOverride = none
  silent : hooks.Silent s.bus → hooks.Silent t.bus
  pending : hooks.Silent s.bus → t.loop.consumedRequestOverride
    = s.loop.privateContext.pendingOverride

theorem merge_eq_none {current incoming : Option RequestOverrideState}
    (hcurrent : ∀ o, current = some o → o.truthy = true)
    (h : RequestOverrideState.merge current incoming = none) :
    current = none := by
  cases current with
  | none => rfl
  | some c =>
    cases incoming with
    | none => cases h
    | some i =>
      rw [merge_some_some (hcurrent c rfl)] at h
      cases h

def hooked (pending postContext preModel : Option RequestOverrideState) :
    Option RequestOverrideState :=
  RequestOverrideState.merge (RequestOverrideState.merge pending
    (RequestOverrideState.coerce postContext)) preModel

section Hooked

variable {pending : Option RequestOverrideState}
  (hpending : ∀ o, pending = some o → o.truthy = true)

include hpending

theorem truthy_postContext (postContext : Option RequestOverrideState)
    {o : RequestOverrideState}
    (h : RequestOverrideState.merge pending
      (RequestOverrideState.coerce postContext) = some o) :
    o.truthy = true := by
  refine truthy_merge hpending (fun i hi => ?_) h
  cases postContext with
  | none => cases hi
  | some post =>
    obtain ⟨htruthy, rfl⟩ := RequestOverrideState.orNone_eq_some.1 hi
    exact htruthy

theorem settings_hooked (d : RequestDefaults)
    (postContext preModel : Option RequestOverrideState) :
    (d.compose (RequestOverrideState.merge pending
        (RequestOverrideState.coerce postContext))).overridden
          (hooked pending postContext preModel)
      = d.settings (hooked pending postContext preModel) :=
  overridden_compose d _ preModel fun _ ho =>
    truthy_postContext hpending postContext ho

theorem pending_of_hooked {postContext preModel : Option RequestOverrideState}
    (h : hooked pending postContext preModel = none) : pending = none :=
  merge_eq_none hpending (merge_eq_none
    (fun _ ho => truthy_postContext hpending postContext ho) h)

end Hooked

namespace TurnRun

section Requesting

variable {hooks : Hooks B M (ModelRequest E)}
  {env : Collaborators W M (ModelRequest E)} {d : RequestDefaults}
  {composition : List M → PrivateContext → Option RequestOverrideState →
    Method W String E}
  {select : ModelRequest E → Method W String (E × Bool)}

theorem compose_yields (messages : List M) (effective : PrivateContext)
    (pending : Option RequestOverrideState) (w : W) :
    ((env.requesting d composition select).compose messages effective
      pending).Yields w fun request _ =>
        request.settings = d.compose pending :=
  Method.yields_bind (P := fun _ _ => True) (fun _ _ _ => trivial)
    fun _ _ _ => Method.yields_pure rfl

theorem finishRequest_yields (request : ModelRequest E)
    (pending : Option RequestOverrideState) (w : W) :
    ((env.requesting d composition select).finishRequest request
      pending).Yields w fun finished _ =>
        finished.1.settings = request.settings.overridden pending :=
  Method.yields_bind (P := fun _ _ => True) (fun _ _ _ => trivial)
    fun _ _ _ => Method.yields_pure rfl

/-- The request is built from the override that is pending and from those
of the hooks. -/
theorem buildRequest_yields (hkeeps : env.KeepsOverrides)
    (s : TurnRun B W M (ModelRequest E)) :
    (buildRequest hooks (env.requesting d composition select)).Yields s
      fun built t => Built hooks d s built.1.settings t := by
  refine Method.yields_bind ((Unmoved.prepareContext
    (env.requesting d composition select)).yields s) fun prepared t₁ h₁ => ?_
  apply Method.yields_read_bind
  refine Method.yields_bind (call_yields hooks (hkeeps.joinSidecars
    t₁.loop.privateContext) t₁) fun joined t₂ h => ?_
  obtain ⟨h₂, hjoined⟩ := h
  apply Method.yields_write_bind
  have hjoin : Unmoved hooks s
      { t₂ with loop := { t₂.loop with privateContext := joined } } :=
    ⟨fun hs => h₂.silent (h₁.silent hs), hjoined.trans h₁.pending,
      h₂.consumed.trans h₁.consumed⟩
  apply Method.yields_read_bind
  refine Method.yields_bind ((Unmoved.dispatch _).yields _)
    fun userPrompt t₃ h₃ => ?_
  refine Method.yields_bind ((Unmoved.dispatch _).yields _)
    fun preContext t₄ h₄ => ?_
  refine Method.yields_bind ((Unmoved.call hooks _).yields _)
    fun built t₅ h₅ => ?_
  refine Method.yields_bind (dispatch_yields _ _)
    fun postContext t₆ h => ?_
  obtain ⟨h₆, hpost⟩ := h
  refine Method.yields_bind ((Unmoved.refinePrompt hooks _ _ _).yields _)
    fun summary t₇ h₇ => ?_
  apply Method.yields_read_bind
  have hbuilt : Unmoved hooks s t₇ := by
    apply Unmoved.trans _ _ _ hjoin
    apply Unmoved.trans _ _ _ h₃
    apply Unmoved.trans _ _ _ h₄
    apply Unmoved.trans _ _ _ h₅
    exact Unmoved.trans _ _ _ h₆ h₇
  have heffective := hkeeps.effective t₇.loop.world t₇.loop.privateContext
  refine Method.yields_bind (call_yields hooks (compose_yields _ _ _)
    t₇) fun request t₈ h => ?_
  obtain ⟨h₈, hrequest⟩ := h
  refine Method.yields_bind (dispatch_yields _ _)
    fun preModel t₉ h => ?_
  obtain ⟨h₉, hpre⟩ := h
  refine Method.yields_bind (call_yields hooks (finishRequest_yields _ _)
    t₉) fun finished t₁₀ h => ?_
  obtain ⟨h₁₀, hfinished⟩ := h
  apply Method.yields_write_bind
  apply Method.yields_pure
  -- What is pending in the private context has a field set.
  have htruthy : ∀ o, (env.effective t₇.loop.world
      t₇.loop.privateContext).pendingOverride = some o → o.truthy = true :=
    fun o ho => (PrivateContext.stored_pendingOverride ho).truthy
  refine ⟨?_, fun hnone => ?_, fun hs => ?_, fun hs => ?_⟩
  · exact (hfinished.trans (congrArg (RequestSettings.overridden · _)
      hrequest)).trans (settings_hooked htruthy d _ _)
  · have hpending := pending_of_hooked htruthy hnone
    exact (h₁₀.pending.trans (h₉.pending.trans h₈.pending)).trans
      (heffective.symm.trans hpending)
  · exact h₁₀.silent (h₉.silent (h₈.silent (hbuilt.silent hs)))
  · have h₅s := h₅.silent (h₄.silent (h₃.silent (hjoin.silent hs)))
    have h₈s := h₈.silent (h₇.silent (h₆.silent h₅s))
    show hooked _ postContext.requestOverride preModel.requestOverride = _
    rw [hpost h₅s, hpre h₈s]
    exact heffective.trans hbuilt.pending

end Requesting

-- ========= the attempt

theorem pendingOverride_clearConsumed {l : TurnLoopState W M Q}
    (h : l.consumedRequestOverride = none →
      l.privateContext.pendingOverride = none) :
    (clearConsumed l).privateContext.pendingOverride = none := by
  unfold clearConsumed
  cases hconsumed : l.consumedRequestOverride with
  | none => exact h hconsumed
  | some o => rfl

theorem consumed_clearConsumed (l : TurnLoopState W M Q) :
    (clearConsumed l).consumedRequestOverride
      = l.consumedRequestOverride := by
  unfold clearConsumed
  split
  · rfl
  · rfl

theorem applyPostModel_yields (hooks : Hooks B M Q)
    (result : HookDispatchResult M) (s : TurnRun B W M Q) :
    (applyPostModel result : TurnM B W M Q Unit).Yields s fun _ t =>
      (hooks.Silent s.bus → hooks.Silent t.bus)
        ∧ t.loop.consumedRequestOverride = s.loop.consumedRequestOverride
        ∧ (result.requestOverride = none →
          t.loop.privateContext.pendingOverride
            = s.loop.privateContext.pendingOverride) := by
  apply Method.yields_write_bind
  refine ((Unmoved.commit hooks _).yields _).mono fun _ t ht => ?_
  refine ⟨ht.silent, ht.consumed.trans ?_, fun hnone => ht.pending.trans ?_⟩
  · cases result.requestOverride <;> rfl
  · rw [hnone]

structure Attempted (hooks : Hooks B M Q) (t u : TurnRun B W M Q) :
    Prop where
  silent : hooks.Silent t.bus → hooks.Silent u.bus
  consumed : u.loop.consumedRequestOverride = t.loop.consumedRequestOverride
  pending : hooks.Silent t.bus →
    u.loop.privateContext.pendingOverride = none

theorem runAttempt_yields (env : Collaborators W M Q) (request : Q)
    (executor : Bool) (prepared : PreparedSummary) {t : TurnRun B W M Q}
    (ht : t.loop.consumedRequestOverride = none →
      t.loop.privateContext.pendingOverride = none) :
    (runAttempt hooks env request executor prepared).Yields t
      fun _ u => Attempted hooks t u := by
  refine Method.yields_bind ((Unmoved.emit hooks _).yields t)
    fun _ t₀ h₀ => ?_
  refine Method.yields_write_bind ?_
  refine Method.yields_bind ((Unmoved.asking _).yields _)
    fun model t₁ h₁ => ?_
  apply Method.yields_read_bind
  apply Method.yields_write_bind
  refine Method.yields_bind ((Unmoved.commit hooks _).yields _)
    fun _ t₃ h₃ => ?_
  refine Method.yields_bind ((Unmoved.emit hooks _).yields _)
    fun _ t₄ h₄ => ?_
  refine Method.yields_bind (dispatch_yields _ _)
    fun postModel t₅ h => ?_
  obtain ⟨h₅, hpost⟩ := h
  have hfinished : Unmoved hooks t₁ t₃ := ⟨h₃.silent, h₃.pending, h₃.consumed⟩
  have hasked := Unmoved.trans _ _ _ h₁ (Unmoved.trans _ _ _ hfinished h₄)
  have hcleared : (clearConsumed t₀.loop).privateContext.pendingOverride
      = none := by
    apply pendingOverride_clearConsumed
    rw [h₀.consumed, h₀.pending]
    exact ht
  have hconsumed : t₅.loop.consumedRequestOverride
      = t.loop.consumedRequestOverride :=
    h₅.consumed.trans (hasked.consumed.trans
      ((consumed_clearConsumed t₀.loop).trans h₀.consumed))
  have hpending : t₅.loop.privateContext.pendingOverride = none :=
    h₅.pending.trans (hasked.pending.trans hcleared)
  refine Method.yields_bind (applyPostModel_yields hooks postModel t₅)
    fun _ u h => ?_
  obtain ⟨hsilent, hsame, hkept⟩ := h
  apply Method.yields_pure
  have h₅s := fun hs => hasked.silent (h₀.silent hs)
  refine ⟨fun hs => hsilent (h₅.silent (h₅s hs)), hsame.trans hconsumed,
    fun hs => ?_⟩
  exact (hkept (hpost (h₅s hs))).trans hpending

-- ======== the decision

theorem stopPhase_yields (env : Collaborators W M Q)
    (policy : RecoveryPolicy) (settled : Settled M) (s : TurnRun B W M Q) :
    (stopPhase hooks env policy settled).Yields s fun p t =>
      Unmoved hooks s t
        ∧ (hooks.Silent s.bus → p.hook.requestOverride = none) := by
  refine Method.yields_bind ((Unmoved.dispatch _).yields s)
    fun stop t ht => ?_
  apply Method.yields_read_bind
  apply Method.yields_read_bind
  apply Method.yields_read_bind
  refine Method.yields_bind (dispatch_yields _ _)
    fun hook u h => ?_
  obtain ⟨hu, hnone⟩ := h
  exact Method.yields_pure
    ⟨Unmoved.trans _ _ _ ht hu, fun hs => hnone (ht.silent hs)⟩

/-- The policy decides to retry an attempt that has failed, and the turn
goes on: `decided` is the state in which it decides. -/
inductive DecidesToRetry (hooks : Hooks B M Q) (env : Collaborators W M Q)
    (policy : RecoveryPolicy) (limit : Nat) (settled : Settled M)
    (ended : TurnRun B W M Q) :
    TurnRun B W M Q → RecoveryDecision M → Prop
  | stopped {p : StopPhase M} {decided : TurnRun B W M Q}
      (hcalls : settled.toolCalls.isEmpty = true)
      (hrun : (stopPhase hooks env policy settled).run ended
        = (.ok p, decided))
      (hfailed : p.input.terminalFailure = true)
      (hretries : p.candidate.action ≠ .halt)
      (hgoes :
        (applyRecoveryHookResult p.candidate p.hook p.input).action ≠ .halt) :
      DecidesToRetry hooks env policy limit settled ended decided p.candidate
  | replayed {replay : ToolReplay M} {t decided : TurnRun B W M Q}
      {input : NormalizedRecoveryInput} {decision : RecoveryDecision M}
      (hcalls : settled.toolCalls.isEmpty = false)
      (habort : ((env.abortReason ended.loop.world).isSome
        && !toolFailureAbort (env.abortReason ended.loop.world)) = false)
      (hexecutor : settled.executor = true)
      (hrun : (asking hooks (env.finalize settled.toolCalls)).run ended
        = (.ok replay, t))
      (hdecided : decided
        = { t with loop := applySkillOverride replay.requestOverride t.loop })
      (hinput : input = normalizeAttemptOutcome
        (env.hinted decided.loop.world settled.attempt) settled.attempt
        (decide (limit ≤ decided.loop.iteration)) false)
      (hdecision : decision = policy.evaluate
        (env.continuation decided.loop.world) decided.loop.recoveryState input
        none settled.prepared)
      (hfailed : input.terminalFailure = true)
      (hretries : decision.action ≠ .halt) :
      DecidesToRetry hooks env policy limit settled ended decided decision

/-- The state the next iteration starts from. -/
def nextIteration (s : TurnRun B W M Q) : TurnRun B W M Q :=
  { s with loop := { s.loop with iteration := s.loop.iteration + 1 } }

/-- An iteration from `s` that fails and is retried: `failed` is its
request, and `next` the request of the iteration after it. -/
structure Retry (hooks : Hooks B M Q) (env : Collaborators W M Q)
    (policy : RecoveryPolicy) (limit : Nat) (s : TurnRun B W M Q) where
  failed : Q
  executor : Bool
  summary : PreparedSummary
  issued : TurnRun B W M Q
  settled : Settled M
  ended : TurnRun B W M Q
  decided : TurnRun B W M Q
  decision : RecoveryDecision M
  next : Q
  nextExecutor : Bool
  nextSummary : PreparedSummary
  reissued : TurnRun B W M Q
  running : s.loop.terminal = none
  builds : (buildRequest hooks env).run s.nextIteration
    = (.ok (failed, executor, summary), issued)
  fails : (runAttempt hooks env failed executor summary).run issued
    = (.ok settled, ended)
  decides : DecidesToRetry hooks env policy limit settled ended decided
    decision
  rebuilds : (buildRequest hooks env).run
      (step hooks env policy limit s).nextIteration
    = (.ok (next, nextExecutor, nextSummary), reissued)

theorem sameExcept_applyDecision (d : RequestDefaults) (c : PrivateContext)
    (decision : RecoveryDecision M) :
    SameExcept (decision.requestOverride.getD {})
      (d.settings c.pendingOverride)
      (d.settings (applyDecision c decision).pendingOverride) := by
  unfold applyDecision
  cases decision.requestOverride with
  | none =>
    dsimp only
    split
    · exact SameExcept.refl _ _
    · exact SameExcept.refl _ _
  | some o =>
    dsimp only
    split
    · exact sameExcept_applyOverride d c o
    · exact sameExcept_applyOverride d c o

variable {decision : RecoveryDecision M} {env : Collaborators W M Q}
  {policy : RecoveryPolicy}

theorem pendingOverride_applyDecision (c : PrivateContext)
    {decision' : RecoveryDecision M}
    (h : decision'.requestOverride = decision.requestOverride) :
    (applyDecision c decision').pendingOverride
      = (applyDecision c decision).pendingOverride := by
  unfold applyDecision
  rw [h]
  extract_lets updated
  split
  · split <;> rfl
  · split <;> rfl

theorem requestOverride_applyRecoveryHookResult
    (decision : RecoveryDecision M) (result : HookDispatchResult M)
    (input : NormalizedRecoveryInput) :
    (applyRecoveryHookResult decision result input).requestOverride
      = RequestOverrideState.merge decision.requestOverride
        (RequestOverrideState.coerce result.requestOverride) := by
  unfold applyRecoveryHookResult
  rw [RecoveryDecision.postInit_requestOverride]
  split
  · rfl
  · split <;> rfl

theorem goOn_run (decision : RecoveryDecision M) (s : TurnRun B W M Q) :
    ∃ t, (goOn decision : TurnM B W M Q Unit).run s = (.ok (), t)
      ∧ t.bus = s.bus
      ∧ t.loop.privateContext
        = applyDecision s.loop.privateContext decision :=
  ⟨_, rfl, rfl, rfl⟩

theorem conclude_goes_on (h : decision.action ≠ .halt) (settled : Settled M)
    (input : NormalizedRecoveryInput) (owners : List String)
    (s : TurnRun B W M Q) :
    ∃ t, (conclude settled input owners decision).run s = (.ok (), t)
      ∧ t.bus = s.bus
      ∧ t.loop.privateContext
        = applyDecision s.loop.privateContext decision := by
  unfold conclude
  rw [if_neg h]
  exact goOn_run decision _

theorem settleReplay_goes_on (h : decision.action ≠ .halt)
    (settled : Settled M) (input : NormalizedRecoveryInput)
    (messages : List M) (s : TurnRun B W M Q) :
    ∃ t, (settleReplay settled input decision messages).run s = (.ok (), t)
      ∧ t.bus = s.bus
      ∧ t.loop.privateContext
        = applyDecision s.loop.privateContext decision := by
  unfold settleReplay
  rw [if_neg h]
  exact goOn_run decision _

/-- An attempt that is retried leaves the next iteration what was pending
when the policy decided, with the override of the decision. -/
theorem DecidesToRetry.carries {limit : Nat} {settled : Settled M}
    {ended decided : TurnRun B W M Q}
    (h : DecidesToRetry hooks env policy limit settled ended decided
      decision) (hsilent : hooks.Silent ended.bus) :
    decided.loop.consumedRequestOverride = ended.loop.consumedRequestOverride
      ∧ ∃ t, (afterAttempt hooks env policy limit settled).run ended
          = (.ok (), t)
        ∧ hooks.Silent t.bus
        ∧ t.loop.privateContext.pendingOverride
          = (applyDecision decided.loop.privateContext
              decision).pendingOverride := by
  cases h with
  | stopped hcalls hrun hfailed hretries hgoes =>
    rename_i p
    obtain ⟨hunmoved, hhook⟩ :=
      stopPhase_yields env policy settled ended p decided hrun
    obtain ⟨t, ht, hbus, hcontext⟩ := conclude_goes_on hgoes settled
      p.input p.stop.matchedOwners decided
    refine ⟨hunmoved.consumed, t, ?_, ?_, ?_⟩
    · unfold afterAttempt
      rw [if_pos hcalls, Method.run_bind_of_ok hrun]
      exact ht
    · rw [hbus]
      exact hunmoved.silent hsilent
    · rw [hcontext]
      apply pendingOverride_applyDecision
      rw [requestOverride_applyRecoveryHookResult, hhook hsilent]
      rfl
  | replayed hcalls habort hexecutor hrun hdecided hinput hdecision hfailed
      hretries =>
      rename_i replay t input
      have hunmoved :=
        (Unmoved.asking (env.finalize settled.toolCalls)).yields ended replay
          t hrun
      have hconsumed : decided.loop.consumedRequestOverride
          = t.loop.consumedRequestOverride := by
        rw [hdecided]
        unfold applySkillOverride
        cases replay.requestOverride <;> rfl
      have hbus : decided.bus = t.bus := by rw [hdecided]
      obtain ⟨u, hu, hbus', hcontext⟩ := settleReplay_goes_on hretries settled
        input (replay.toolMessage.toList ++ replay.injectedMessages) decided
      refine ⟨hconsumed.trans hunmoved.consumed, u, ?_, ?_, ?_⟩
      · have hreplay : (replayTools hooks env policy limit settled).run ended
            = (.ok (), u) := by
          unfold replayTools
          rw [Method.run_bind_of_ok hrun]
          subst hdecided hinput hdecision
          exact hu
        have hafter : (afterTools hooks env policy limit settled).run ended
            = (replayTools hooks env policy limit settled).run ended := by
          unfold afterTools get
          rw [Method.run_read_bind, if_neg (Bool.eq_false_iff.1 habort),
            hexecutor]
          rfl
        unfold afterAttempt
        rw [if_neg (Bool.eq_false_iff.1 hcalls), hafter]
        exact hreplay
      · rw [hbus', hbus]
        exact hunmoved.silent hsilent
      · rw [hcontext]

theorem step_of_iterate {limit : Nat} {s t : TurnRun B W M Q}
    (hrunning : s.loop.terminal = none)
    (h : (iterate hooks env policy limit).run s = (.ok (), t)) :
    step hooks env policy limit s = t := by
  have hnot : ¬ s.loop.terminal.isSome = true := by
    rw [hrunning]
    exact Bool.false_ne_true
  unfold step
  rw [if_neg hnot, Method.run_tryExcept_of_ok h]

end TurnRun

-- ========= the retries

/-- In every run, a retry after which no hook returns an override repeats
the request it retries, the fields that the decision sets aside, exactly
when the override that is pending as the policy decides, that of a skill
the failed attempt has run, gives these fields the values which the
override that the attempt has consumed gave them. -/
theorem TurnRun.retry_repeats_iff {env : Collaborators W M (ModelRequest E)}
    (hkeeps : env.KeepsOverrides) (hooks : Hooks B M (ModelRequest E))
    (policy : RecoveryPolicy) (limit : Nat) (d : RequestDefaults)
    (composition : List M → PrivateContext → Option RequestOverrideState →
      Method W String E)
    (select : ModelRequest E → Method W String (E × Bool))
    (start : TurnRun B W M (ModelRequest E)) (n : Nat)
    (r : Retry hooks (env.requesting d composition select) policy limit
      (after hooks (env.requesting d composition select) policy limit n
        start)) (hsilent : hooks.Silent r.issued.bus) :
    SameExcept (r.decision.requestOverride.getD {}) r.failed.settings
        r.next.settings
      ↔ SameExcept (r.decision.requestOverride.getD {})
          (d.settings r.decided.loop.consumedRequestOverride)
          (d.settings
            r.decided.loop.privateContext.pendingOverride) := by
  have hbuilt := buildRequest_yields hkeeps _ _ _ r.builds
  have hattempted := runAttempt_yields _ _ _ _ hbuilt.unconsumed _ _ r.fails
  obtain ⟨hconsumed, t, hafter, hquiet, hpending⟩ :=
    r.decides.carries (hattempted.silent hsilent)
  have hiterate : (iterate hooks (env.requesting d composition select) policy
      limit).run (after hooks (env.requesting d composition select) policy
        limit n start) = (.ok (), t) := by
    have hattempt : (attempt hooks (env.requesting d composition select)).run
        (after hooks (env.requesting d composition select) policy limit n
          start) = (.ok r.settled, r.ended) := by
      have hissue := Method.run_bind_of_ok (f := fun built =>
        runAttempt hooks (env.requesting d composition select) built.1
          built.2.1 built.2.2) r.builds
      exact hissue.trans r.fails
    unfold iterate
    rw [Method.run_bind_of_ok hattempt]
    exact hafter
  have hrebuilt := buildRequest_yields hkeeps _ _ _ r.rebuilds
  rw [step_of_iterate r.running hiterate] at hrebuilt
  -- The failed request, by what the attempt has consumed.
  have hfailed : r.failed.settings
      = d.settings r.decided.loop.consumedRequestOverride := by
    rw [hconsumed, hattempted.consumed]
    exact hbuilt.settings
  -- The next one, by what was pending and by the decision.
  have hnext : SameExcept (r.decision.requestOverride.getD {})
      (d.settings r.decided.loop.privateContext.pendingOverride)
      r.next.settings := by
    have hsettings : r.next.settings = d.settings (applyDecision
        r.decided.loop.privateContext r.decision).pendingOverride := by
      rw [← hpending]
      exact hrebuilt.settings.trans (congrArg d.settings
        (hrebuilt.pending hquiet))
    rw [hsettings]
    exact sameExcept_applyDecision d _ _
  rw [hfailed]
  exact ⟨fun h => h.trans hnext.symm, fun h => h.trans hnext⟩

-- ==== a provider overload

namespace TurnRun

/-- Collaborators whose model is overloaded each time it is called. -/
def overloaded : Collaborators Unit Unit (ModelRequest Unit) where
  prepare _ _ := pure { activeMessages := [] }
  joinSidecars c := pure c
  effective _ c := c
  buildPrompt _ := pure {}
  rebuildPrompt _ := pure {}
  compose _ _ _ := Method.raise "composed by the turn"
  finishRequest _ _ := Method.raise "finished by the turn"
  attempt _ w := .done (.ok { terminal :=
    { stopReason := some "provider_overload" } }, w)
  hinted _ _ := none
  continuation _ := ()
  abortReason _ := none
  finalize _ w := .done (.ok {}, w)

theorem keepsOverrides_overloaded : overloaded.KeepsOverrides where
  joinSidecars _ _ := Method.yields_pure rfl
  effective _ _ := rfl

def smallAgent : RequestDefaults where
  model := some "small"
  effort := .none
  requestedModelRoute := none
  invocationMode := .stream

def overloadedTurn : Collaborators Unit Unit (ModelRequest Unit) :=
  overloaded.requesting smallAgent (fun _ _ _ => pure ())
    fun _ => pure ((), true)

/-- Nothing is registered. -/
def unhookedRequests : Hooks Unit Unit (ModelRequest Unit) where
  dispatch _ := pure []

theorem silent_unhookedRequests (b : Unit) : unhookedRequests.Silent b := by
  refine ⟨fun _ => True, fun payload b _ => ⟨trivial, ?_⟩, trivial⟩
  exact Method.yields_pure fun call hcall => by cases hcall

def resumedSession : TurnRun Unit Unit Unit (ModelRequest Unit) where
  loop :=
    { world := (), workingMessages := [()]
      privateContext :=
        { requestOverride := some { requestedModel := some "large" } } }
  bus := ()

def returned {σ A : Type} [Inhabited A] (m : Method σ String A) (s : σ) : A :=
  match (m.run s).1 with
  | .ok a => a
  | .error _ => default

instance : Inhabited (ModelRequest Unit × Bool × PreparedSummary) :=
  ⟨⟨⟨none, .none, none, none, none⟩, ()⟩, false, {}⟩

instance : Inhabited (Settled Unit) := ⟨⟨{}, { iteration := 0 }, [], false⟩⟩

instance : Inhabited (StopPhase Unit) :=
  ⟨⟨{}, {}, { action := .halt, reason := "" }, {}⟩⟩

def overloadedRetry : Retry unhookedRequests overloadedTurn {} 8
    (after unhookedRequests overloadedTurn {} 8 0 resumedSession) :=
  let request := buildRequest unhookedRequests overloadedTurn
  let built := returned request resumedSession.nextIteration
  let issued := (request.run resumedSession.nextIteration).2
  let attempting := runAttempt unhookedRequests overloadedTurn built.1
    built.2.1 built.2.2
  let settled := returned attempting issued
  let ended := (attempting.run issued).2
  let stopping := stopPhase unhookedRequests overloadedTurn {} settled
  let stopped := returned stopping ended
  let second := (step unhookedRequests overloadedTurn {} 8
    resumedSession).nextIteration
  let rebuilt := returned request second
  { failed := built.1, executor := built.2.1, summary := built.2.2
    issued := issued, settled := settled, ended := ended
    decided := (stopping.run ended).2, decision := stopped.candidate
    next := rebuilt.1, nextExecutor := rebuilt.2.1
    nextSummary := rebuilt.2.2, reissued := (request.run second).2
    running := rfl, builds := rfl, fails := rfl
    decides := .stopped (p := stopped) rfl rfl (by decide +kernel)
      (by decide +kernel) (by decide +kernel)
    rebuilds := rfl }

end TurnRun

/-- The resumed override is consumed by the attempt that fails: the retry
runs on the agent's own model. -/
theorem TurnRun.retry_falls_back :
    unhookedRequests.Silent overloadedRetry.issued.bus
      ∧ overloadedRetry.decision.action = .rebuildRequest
      ∧ overloadedRetry.failed.settings.model = some "large"
      ∧ overloadedRetry.next.settings.model = some "small"
      ∧ ¬ SameExcept (overloadedRetry.decision.requestOverride.getD {})
          overloadedRetry.failed.settings overloadedRetry.next.settings := by
  have hfailed : overloadedRetry.failed.settings.model = some "large" := by
    decide +kernel
  have hnext : overloadedRetry.next.settings.model = some "small" := by
    decide +kernel
  refine ⟨silent_unhookedRequests _, by decide +kernel, hfailed, hnext,
    fun h => ?_⟩
  have hsame := h.model (by decide +kernel)
  rw [hfailed, hnext] at hsame
  exact absurd hsame (by decide)

theorem TurnRun.retry_repeats_iff_overloaded :
    SameExcept (overloadedRetry.decision.requestOverride.getD {})
        overloadedRetry.failed.settings overloadedRetry.next.settings
      ↔ SameExcept (overloadedRetry.decision.requestOverride.getD {})
          (smallAgent.settings
            overloadedRetry.decided.loop.consumedRequestOverride)
          (smallAgent.settings
            overloadedRetry.decided.loop.privateContext.pendingOverride) :=
  retry_repeats_iff keepsOverrides_overloaded unhookedRequests {} 8
    smallAgent (fun _ _ _ => pure ()) (fun _ => pure ((), true))
    resumedSession 0 overloadedRetry (silent_unhookedRequests _)

end WeaveRuntime.TurnEngine
