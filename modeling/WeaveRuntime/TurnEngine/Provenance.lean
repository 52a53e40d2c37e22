/-
Where the fields of merged request overrides come from.

Overrides are merged from left to right, the later one winning field by
field. What a field of the result is set to is what the last override
that sets it says (`value_mergeAll`). Whom the result names for it is
another matter: a merge that finds no source on record for a field of the
running result falls back to the source of that result as a whole
(`named`), and by then that is the latest source of any override merged
so far.

# The argument

`kept` is what of the list the running result still knows of: a merge that
leaves no field set leaves nothing at all. Along the list (`Merged`), the
name a field is looked up under stays what its setter gave where it gave
one, and otherwise is there exactly when some override kept so far has a
source. So a name is wrong where a setter that gave none is followed by a
merge, and some override before that merge has a source
(`provenance_iff`).

An empty text names no source: `or` passes over it.
-/
import WeaveRuntime.TurnEngine.Overrides
import Mathlib.Data.List.Induction

namespace WeaveRuntime.TurnEngine

open Python

-- ========== the fields

inductive OverrideField where
  | requestedModel | requestedEffort | requestedModelRoute
  | invocationModeOverride | maxOutputTokensOverride
  deriving DecidableEq, Repr

namespace OverrideField

def name : OverrideField → String
  | .requestedModel => "requested_model"
  | .requestedEffort => "requested_effort"
  | .requestedModelRoute => "requested_model_route"
  | .invocationModeOverride => "invocation_mode_override"
  | .maxOutputTokensOverride => "max_output_tokens_override"

def setTo (value : PyVal) : Option PyVal :=
  if isNone value then none else some value

def value (o : RequestOverrideState) : OverrideField → Option PyVal
  | .requestedModel => o.requestedModel.map PyVal.str
  | .requestedEffort => setTo o.requestedEffort
  | .requestedModelRoute => o.requestedModelRoute.map PyVal.str
  | .invocationModeOverride => setTo o.invocationModeOverride
  | .maxOutputTokensOverride => o.maxOutputTokensOverride.map PyVal.int

def all : List OverrideField :=
  [.requestedModel, .requestedEffort, .requestedModelRoute,
    .invocationModeOverride, .maxOutputTokensOverride]

theorem mem_all (f : OverrideField) : f ∈ all := by
  cases f <;> decide

theorem setTo_keepSet (left right : PyVal) :
    setTo (keepSet left right) = (setTo left).or (setTo right) := by
  unfold setTo keepSet
  cases h : isNone left <;> simp [h]

theorem isSome_setTo (v : PyVal) : (setTo v).isSome = !isNone v := by
  unfold setTo
  cases isNone v <;> rfl

theorem value_combine (current incoming : RequestOverrideState)
    (f : OverrideField) :
    f.value (current.combine incoming)
      = (f.value incoming).or (f.value current) := by
  cases f with
  | requestedModel => exact Option.map_or
  | requestedEffort => exact setTo_keepSet _ _
  | requestedModelRoute => exact Option.map_or
  | invocationModeOverride => exact setTo_keepSet _ _
  | maxOutputTokensOverride => exact Option.map_or

theorem fields_eq (o : RequestOverrideState) :
    o.fields = all.map fun f => (f.name, (f.value o).isSome) := by
  unfold RequestOverrideState.fields all value
  simp only [List.map_cons, List.map_nil, isSome_setTo, Option.isSome_map]
  rfl

end OverrideField

open OverrideField

-- ========= the sources

/-- A text that `or` does not pass over. -/
def names : Option String → Bool
  | some text => decide (text ≠ "")
  | none => false

theorem names_some {text : String} (h : text ≠ "") :
    names (some text) = true :=
  decide_eq_true h

theorem textOr_of_names {left : Option String} (right : Option String)
    (h : names left = true) : textOr left right = left := by
  cases left with
  | none => cases h
  | some text => exact if_neg (of_decide_eq_true h)

theorem textOr_of_not_names {left : Option String} (right : Option String)
    (h : names left = false) : textOr left right = right := by
  cases left with
  | none => rfl
  | some text => exact if_pos (not_not.1 (of_decide_eq_false h))

@[simp] theorem names_textOr (left right : Option String) :
    names (textOr left right) = (names left || names right) := by
  cases h : names left with
  | true => rw [textOr_of_names right h, h, Bool.true_or]
  | false => rw [textOr_of_not_names right h, Bool.false_or]

/-- Whom a merge takes a field of an override from:
`override.field_sources.get(field_name) or override.source`. -/
def named (o : RequestOverrideState) (f : OverrideField) : Option String :=
  textOr (o.fieldSources.lookup f.name) o.source

@[simp] theorem names_named (o : RequestOverrideState) (f : OverrideField) :
    names (named o f)
      = (names (o.fieldSources.lookup f.name) || names o.source) :=
  names_textOr _ _

/-- The source an override gives for a field: its own entry for it, else
its source. -/
def Gives (o : RequestOverrideState) (f : OverrideField) (source : String) :
    Prop :=
  o.fieldSources.lookup f.name = some source
    ∨ (names (o.fieldSources.lookup f.name) = false
      ∧ o.source = some source)

variable {f : OverrideField} {o : RequestOverrideState}

theorem gives_of_named {source : String} (h : named o f = some source) :
    Gives o f source := by
  cases hentry : names (o.fieldSources.lookup f.name) with
  | true => exact Or.inl ((textOr_of_names _ hentry).symm.trans h)
  | false => exact Or.inr ⟨hentry, (textOr_of_not_names _ hentry).symm.trans h⟩

theorem names_of_gives {source : String} (h : Gives o f source)
    (hne : source ≠ "") : names (named o f) = true := by
  rw [names_named, Bool.or_eq_true]
  rcases h with h | ⟨-, h⟩
  · rw [h]
    exact Or.inl (names_some hne)
  · rw [h]
    exact Or.inr (names_some hne)

theorem lookup_filterMap {α β : Type} {g : String × α → Option β}
    {l : List (String × α)} (hnodup : (l.map Prod.fst).Nodup)
    {e : String × α} (he : e ∈ l) :
    (l.filterMap fun e => (g e).map (e.1, ·)).lookup e.1 = g e := by
  induction l with
  | nil => cases he
  | cons a l ih =>
    rw [List.map_cons, List.nodup_cons] at hnodup
    rcases List.mem_cons.1 he with rfl | he'
    · cases hg : g e with
      | some b =>
        rw [List.filterMap_cons, hg]
        simp
      | none =>
        rw [List.filterMap_cons, hg]
        rw [List.lookup_eq_none_iff]
        intro p hp
        obtain ⟨a', ha', hp'⟩ := List.mem_filterMap.1 hp
        obtain ⟨b, -, rfl⟩ := Option.map_eq_some_iff.1 hp'
        have hne : e.1 ≠ a'.1 := fun h =>
          hnodup.1 (h ▸ List.mem_map_of_mem ha')
        simpa using hne
    · have hne : e.1 ≠ a.1 := fun h =>
        hnodup.1 (h ▸ List.mem_map_of_mem he')
      rw [List.filterMap_cons]
      cases hg : g a with
      | none => exact ih hnodup.2 he'
      | some b =>
        show List.lookup e.1 ((a.1, b) :: _) = _
        rw [List.lookup_cons, beq_false_of_ne hne]
        exact ih hnodup.2 he'

theorem lookup_combine (current incoming : RequestOverrideState)
    (f : OverrideField) :
    (current.combine incoming).fieldSources.lookup f.name
      = if (f.value incoming).isSome then named incoming f
        else named current f := by
  have hmem : (f.name, (f.value incoming).isSome) ∈ incoming.fields := by
    rw [fields_eq]
    exact List.mem_map_of_mem (mem_all f)
  have hnodup : (incoming.fields.map Prod.fst).Nodup := by
    rw [fields_eq, List.map_map]
    show (OverrideField.all.map OverrideField.name).Nodup
    decide
  exact lookup_filterMap hnodup hmem

-- =========== the merge

/-- The overrides of a list, merged from left to right. -/
def mergeAll (os : List RequestOverrideState) : Option RequestOverrideState :=
  os.foldl (fun current o => RequestOverrideState.merge current (some o)) none

def lastSetter (os : List RequestOverrideState) (f : OverrideField) :
    Option RequestOverrideState :=
  os.reverse.find? fun o => (f.value o).isSome

/-- One more override: a merge that leaves no field set leaves nothing. -/
def keep (run : List RequestOverrideState) (o : RequestOverrideState) :
    List RequestOverrideState :=
  if run ≠ [] ∧ (run ++ [o]).any RequestOverrideState.truthy = false then []
  else run ++ [o]

/-- The overrides that are not forgotten on the way. -/
def kept (os : List RequestOverrideState) : List RequestOverrideState :=
  os.foldl keep []

theorem lastSetter_concat (os : List RequestOverrideState)
    (o : RequestOverrideState) (f : OverrideField) :
    lastSetter (os ++ [o]) f
      = if (f.value o).isSome then some o else lastSetter os f := by
  unfold lastSetter
  rw [List.reverse_append]
  show List.find? _ (o :: os.reverse) = _
  rw [List.find?_cons]
  cases (f.value o).isSome <;> rfl

theorem isSome_of_lastSetter {os : List RequestOverrideState}
    {u : RequestOverrideState} (h : lastSetter os f = some u) :
    (f.value u).isSome = true := by
  have hfind : os.reverse.find? (fun o => (f.value o).isSome) = some u := h
  have hset := List.find?_some hfind
  exact hset

theorem truthy_eq_any (o : RequestOverrideState) :
    o.truthy = OverrideField.all.any fun f => (f.value o).isSome := by
  unfold RequestOverrideState.truthy OverrideField.all
  simp only [List.any_cons, List.any_nil, OverrideField.value, isSome_setTo,
    Option.isSome_map, Bool.or_false, Bool.or_assoc]

theorem value_of_not_truthy (h : o.truthy = false) (f : OverrideField) :
    f.value o = none := by
  rw [truthy_eq_any, List.any_eq_false] at h
  exact Option.not_isSome_iff_eq_none.1 (h f (mem_all f))

theorem truthy_combine (current incoming : RequestOverrideState) :
    (current.combine incoming).truthy
      = (incoming.truthy || current.truthy) := by
  rw [truthy_eq_any, truthy_eq_any, truthy_eq_any]
  unfold OverrideField.all
  simp only [value_combine, Option.isSome_or, List.any_cons, List.any_nil,
    Bool.or_false]
  ac_rfl

-- ====== along the list

/-- What the running result still tells of the overrides it was merged
from. -/
structure Tracked (os : List RequestOverrideState) (r : RequestOverrideState) :
    Prop where
  kept_ne_nil : kept os ≠ []
  truthy : r.truthy = (kept os).any RequestOverrideState.truthy
  value : ∀ f : OverrideField, f.value r = (lastSetter os f).bind f.value
  source : names r.source = (kept os).any fun o => names o.source
  given : ∀ f u, lastSetter os f = some u → names (named u f) = true →
    named r f = named u f
  fallback : ∀ f u, lastSetter os f = some u → names (named u f) = false →
    names (named r f) = names r.source

/-- Nothing was ever set. -/
structure Forgotten (os : List RequestOverrideState) : Prop where
  kept_nil : kept os = []
  lastSetter_none : ∀ f, lastSetter os f = none

section Tracking

variable {os : List RequestOverrideState} {o r : RequestOverrideState}

theorem kept_concat (os : List RequestOverrideState)
    (o : RequestOverrideState) : kept (os ++ [o]) = keep (kept os) o := by
  unfold kept
  rw [List.foldl_append]
  rfl

theorem mergeAll_concat (os : List RequestOverrideState)
    (o : RequestOverrideState) :
    mergeAll (os ++ [o]) = RequestOverrideState.merge (mergeAll os) (some o) := by
  unfold mergeAll
  rw [List.foldl_append]
  rfl

/-- From nothing, the next override is the result as it is. -/
theorem Forgotten.concat (h : Forgotten os) (o : RequestOverrideState) :
    Tracked (os ++ [o]) o := by
  have hkept : kept (os ++ [o]) = [o] := by
    rw [kept_concat, h.kept_nil]
    exact if_neg fun hne => hne.1 rfl
  have hsetter : ∀ f, lastSetter (os ++ [o]) f
      = if (f.value o).isSome then some o else none := by
    intro f
    rw [lastSetter_concat, h.lastSetter_none]
  have hself : ∀ f u, lastSetter (os ++ [o]) f = some u → u = o := by
    intro f u hu
    rw [hsetter] at hu
    split at hu
    · exact (Option.some.inj hu).symm
    · cases hu
  refine ⟨?_, ?_, ?_, ?_, ?_, ?_⟩
  · rw [hkept]
    exact List.cons_ne_nil _ _
  · rw [hkept]
    simp
  · intro f
    rw [hsetter]
    cases hset : f.value o with
    | some v => simp [hset]
    | none => simp
  · rw [hkept]
    simp
  · intro f u hu _
    rw [hself f u hu]
  · intro f u hu hnames
    rw [hself f u hu] at hnames
    rw [names_named, Bool.or_eq_false_iff] at hnames
    rw [names_named, hnames.1, Bool.false_or]

theorem Tracked.value_concat (h : Tracked os r) (o : RequestOverrideState)
    (f : OverrideField) :
    f.value (r.combine o) = (lastSetter (os ++ [o]) f).bind f.value := by
  rw [value_combine, lastSetter_concat, h.value]
  cases hset : f.value o with
  | some v => simp [hset]
  | none => simp

theorem Tracked.forget (h : Tracked os r)
    (hidle : (r.combine o).truthy = false) : Forgotten (os ++ [o]) := by
  refine ⟨?_, ?_⟩
  · rw [kept_concat]
    refine if_pos ⟨h.kept_ne_nil, ?_⟩
    rw [truthy_combine, h.truthy, Bool.or_comm] at hidle
    simpa using hidle
  · intro f
    have hvalue := h.value_concat o f
    rw [value_of_not_truthy hidle] at hvalue
    cases hsetter : lastSetter (os ++ [o]) f with
    | none => rfl
    | some u =>
      have hset := isSome_of_lastSetter hsetter
      rw [hsetter] at hvalue
      exact absurd hset (by simp [← show _ = f.value u from hvalue])

theorem Tracked.concat (h : Tracked os r)
    (hset : (r.combine o).truthy = true) :
    Tracked (os ++ [o]) (r.combine o) := by
  have htruthy : (r.combine o).truthy
      = (kept os ++ [o]).any RequestOverrideState.truthy := by
    rw [truthy_combine, h.truthy, Bool.or_comm]
    simp
  have hkept : kept (os ++ [o]) = kept os ++ [o] := by
    rw [kept_concat]
    refine if_neg fun hidle => ?_
    rw [htruthy, hidle.2] at hset
    cases hset
  have hsource : names (r.combine o).source
      = (names o.source || names r.source) := names_textOr _ _
  refine ⟨?_, ?_, h.value_concat o, ?_, ?_, ?_⟩
  · rw [hkept]
    exact List.append_ne_nil_of_right_ne_nil _ (List.cons_ne_nil _ _)
  · rw [hkept]
    exact htruthy
  · rw [hkept, hsource, h.source, Bool.or_comm]
    simp
  · intro f u hu hnames
    rw [lastSetter_concat] at hu
    have hlookup := lookup_combine r o f
    split at hu
    · next hown =>
      cases hu
      rw [if_pos hown] at hlookup
      unfold named
      rw [hlookup, textOr_of_names _ hnames]
      rfl
    · next hown =>
      have hbefore := h.given f u hu hnames
      rw [if_neg hown, hbefore] at hlookup
      unfold named
      rw [hlookup, textOr_of_names _ hnames]
      rfl
  · intro f u hu hnames
    rw [lastSetter_concat] at hu
    rw [names_named, lookup_combine]
    split at hu
    · next hown =>
      cases hu
      rw [if_pos hown, hnames, Bool.false_or]
    · next hown =>
      rw [if_neg hown, h.fallback f u hu hnames, hsource]
      cases names r.source <;> simp

theorem tracked (os : List RequestOverrideState) :
    (mergeAll os = none → Forgotten os)
      ∧ ∀ r, mergeAll os = some r → Tracked os r := by
  -- along the list, from its end
  induction os using List.reverseRecOn with
  | nil => exact ⟨fun _ => ⟨rfl, fun _ => rfl⟩, fun r h => by cases h⟩
  | append_singleton os o ih =>
    rw [mergeAll_concat]
    cases hmerged : mergeAll os with
    | none =>
      refine ⟨fun h => (by cases h), fun r h => ?_⟩
      cases h
      exact (ih.1 hmerged).concat o
    | some r =>
      have htracked := ih.2 r hmerged
      show ((r.combine o).orNone = none → _)
        ∧ ∀ r', (r.combine o).orNone = some r' → _
      unfold RequestOverrideState.orNone
      cases hset : (r.combine o).truthy with
      | true =>
        refine ⟨fun h => (by cases h), fun r' h => ?_⟩
        cases h
        exact htracked.concat hset
      | false =>
        exact ⟨fun _ => htracked.forget hset, fun r' h => by cases h⟩

end Tracking

-- ====== the provenance

def MergesFields (os : List RequestOverrideState) : Prop :=
  ∀ f : OverrideField, (mergeAll os).bind f.value
    = (lastSetter os f).bind f.value

def Attributes (os : List RequestOverrideState) : Prop :=
  ∀ r, mergeAll os = some r → ∀ f o source, lastSetter os f = some o →
    source ≠ "" → r.fieldSources.lookup f.name = some source →
    Gives o f source

/-- A setter that gives no source for its field is the last override, or no
override before the last has a source. -/
def Sourced (before : List RequestOverrideState)
    (last : RequestOverrideState) : Prop :=
  ∀ (f : OverrideField) u, f.value last = none →
    lastSetter before f = some u →
    names (named u f) = true ∨ ∀ o ∈ kept before, names o.source = false

theorem mergesFields (os : List RequestOverrideState) : MergesFields os := by
  intro f
  cases hmerged : mergeAll os with
  | none => rw [((tracked os).1 hmerged).lastSetter_none f]
  | some r => exact ((tracked os).2 r hmerged).value f

section Provenance

variable {before : List RequestOverrideState}
  {last r : RequestOverrideState}

variable {f : OverrideField}

theorem gives_of_last {source : String}
    (hmerged : mergeAll (before ++ [last]) = some r)
    (hset : (f.value last).isSome = true)
    (hlookup : r.fieldSources.lookup f.name = some source) :
    Gives last f source := by
  rw [mergeAll_concat] at hmerged
  cases hbefore : mergeAll before with
  | none =>
    rw [hbefore] at hmerged
    cases hmerged
    exact Or.inl hlookup
  | some current =>
    rw [hbefore] at hmerged
    have hmerged' : (current.combine last).orNone = some r := hmerged
    unfold RequestOverrideState.orNone at hmerged'
    split at hmerged'
    · cases hmerged'
      rw [lookup_combine, if_pos hset] at hlookup
      exact gives_of_named hlookup
    · cases hmerged'

/-- A field the last override leaves alone is attributed to whom the
result before names for it. -/
theorem lookup_of_not_last {u : RequestOverrideState}
    (hmerged : mergeAll (before ++ [last]) = some r)
    (hset : f.value last = none) (hu : lastSetter before f = some u) :
    ∃ current, Tracked before current
      ∧ r.fieldSources.lookup f.name = named current f := by
  rw [mergeAll_concat] at hmerged
  cases hbefore : mergeAll before with
  | none =>
    rw [((tracked before).1 hbefore).lastSetter_none f] at hu
    cases hu
  | some current =>
    rw [hbefore] at hmerged
    have hmerged' : (current.combine last).orNone = some r := hmerged
    unfold RequestOverrideState.orNone at hmerged'
    split at hmerged'
    · cases hmerged'
      refine ⟨current, (tracked before).2 current hbefore, ?_⟩
      rw [lookup_combine, hset]
      rfl
    · cases hmerged'

theorem exists_merged {os : List RequestOverrideState}
    {u : RequestOverrideState} (hu : lastSetter os f = some u) :
    ∃ r, mergeAll os = some r := by
  cases hmerged : mergeAll os with
  | none =>
    rw [((tracked os).1 hmerged).lastSetter_none f] at hu
    cases hu
  | some r => exact ⟨r, rfl⟩

/-- Merged from left to right, every field is what the last override that
sets it says, and no field is attributed to another override exactly where
no setter without a source of its own is followed by a merge that finds
one. -/
theorem provenance_iff (before : List RequestOverrideState)
    (last : RequestOverrideState) :
    (MergesFields (before ++ [last]) ∧ Attributes (before ++ [last]))
      ↔ Sourced before last := by
  refine ⟨fun h => ?_, fun h => ⟨mergesFields _, ?_⟩⟩
  · intro f u hset hu
    by_contra hnot
    rw [not_or, Bool.not_eq_true] at hnot
    obtain ⟨hunnamed, hsome⟩ := hnot
    have hsetter : lastSetter (before ++ [last]) f = some u := by
      rw [lastSetter_concat, hset]
      exact hu
    obtain ⟨r, hmerged⟩ := exists_merged hsetter
    obtain ⟨current, htracked, hlookup⟩ := lookup_of_not_last hmerged hset hu
    -- some override before the last has a source, so the result names one
    have hnames : names (named current f) = true := by
      rw [htracked.fallback f u hu hunnamed, htracked.source,
        List.any_eq_true]
      push Not at hsome
      obtain ⟨o, ho, hne⟩ := hsome
      exact ⟨o, ho, by simpa using hne⟩
    cases hnamed : named current f with
    | none =>
      rw [hnamed] at hnames
      cases hnames
    | some source =>
      rw [hnamed] at hnames hlookup
      have hne : source ≠ "" := of_decide_eq_true hnames
      have hgives := h.2 r hmerged f u source hsetter hne hlookup
      rw [names_of_gives hgives hne] at hunnamed
      cases hunnamed
  · intro r hmerged f u source hsetter hne hlookup
    cases hset : f.value last with
    | some v =>
      have hown : (f.value last).isSome = true := by
        rw [hset]
        rfl
      rw [lastSetter_concat, if_pos hown] at hsetter
      cases hsetter
      exact gives_of_last hmerged hown hlookup
    | none =>
      have hu : lastSetter before f = some u := by
        rw [lastSetter_concat, hset] at hsetter
        exact hsetter
      obtain ⟨current, htracked, hcurrent⟩ :=
        lookup_of_not_last hmerged hset hu
      rw [hcurrent] at hlookup
      cases hunnamed : names (named u f) with
      | true =>
        rw [htracked.given f u hu hunnamed] at hlookup
        exact gives_of_named hlookup
      | false =>
        have hnone : ∀ o ∈ kept before, names o.source = false :=
          (h f u hset hu).resolve_left (by rw [hunnamed]; decide)
        have hsource : names current.source = false := by
          rw [htracked.source, List.any_eq_false]
          intro o ho
          rw [hnone o ho]
          decide
        have hnames := htracked.fallback f u hu hunnamed
        rw [hlookup, hsource, names_some hne] at hnames
        cases hnames

end Provenance

def misattributed : List RequestOverrideState :=
  [{ requestedModel := some "small" },
    { requestedEffort := .str "high", source := some "hook:effort" },
    { requestedModelRoute := some "main" }]

/-- The result says the hook has chosen the model. -/
theorem model_misattributed :
    ((mergeAll misattributed).bind fun r =>
        r.fieldSources.lookup "requested_model") = some "hook:effort"
      ∧ ¬ ∀ os : List RequestOverrideState, os ≠ [] →
        MergesFields os ∧ Attributes os := by
  refine ⟨by decide +kernel, fun h => ?_⟩
  have hwrong := (h misattributed (List.cons_ne_nil _ _)).2
  cases hmerged : mergeAll misattributed with
  | none => exact absurd hmerged (by decide +kernel)
  | some r =>
    have hlookup : r.fieldSources.lookup "requested_model"
        = some "hook:effort" := by
      have hnamed : ((mergeAll misattributed).bind fun r =>
          r.fieldSources.lookup "requested_model")
            = some "hook:effort" := by decide +kernel
      rw [hmerged] at hnamed
      exact hnamed
    have hgives : Gives { requestedModel := some "small" }
        .requestedModel "hook:effort" :=
      hwrong r hmerged .requestedModel _ "hook:effort" rfl (by decide)
        hlookup
    have hnames := names_of_gives hgives (by decide)
    exact absurd hnames (by decide)

end WeaveRuntime.TurnEngine
