/-
The runtime's private context: typed fields, diagnostics and extensions.

Code that still speaks in one mapping gets the context flattened
(`compatMetadata`), and a mapping is split again by the names of its keys
(`privateContextFromLegacyRuntimeContext`). A merge flattens, updates and
splits, so a merge with nothing should change nothing the second time.

# What the second pass sees

Flattening forgets in which of the three parts a key was. The split finds
typed keys and the keys of diagnostics by name, with one exception: a
mapping under the key `diagnostics` is unpacked, and its keys become
diagnostics WHATEVER their names. Flattened again they are keys like any
other: the typed ones set fields, some are dropped, the rest are
extensions.

So the keys of that one mapping decide (`merge_idempotent_iff`). That the
second pass cannot by chance unpack the same mapping again is a matter of
size: it would have to contain itself.
-/
import WeaveRuntime.Lib.Dict
import WeaveRuntime.Python.Value
import WeaveRuntime.TurnEngine.Recovery
import Mathlib.Data.List.Induction

namespace WeaveRuntime.Contracts

open Lib
open Python
open TurnEngine (coerceOptionalInt)

-- ============ mappings

abbrev Mapping := Dict String PyVal

def writeAll (mapping : Mapping) (entries : List (String × PyVal)) :
    Mapping :=
  entries.foldl (fun d e => d.insert e.1 e.2) mapping

def update (mapping other : Mapping) : Mapping :=
  writeAll mapping other.entries

def lastValue (entries : List (String × PyVal)) (key : String) :
    Option PyVal :=
  (entries.reverse.find? fun e => e.1 = key).map Prod.snd

theorem lastValue_concat (entries : List (String × PyVal))
    (e : String × PyVal) (key : String) :
    lastValue (entries ++ [e]) key
      = if e.1 = key then some e.2 else lastValue entries key := by
  unfold lastValue
  rw [List.reverse_append]
  show ((e :: entries.reverse).find? _).map _ = _
  rw [List.find?_cons]
  split
  · next htest => rw [if_pos (of_decide_eq_true htest)]; rfl
  · next htest => rw [if_neg (of_decide_eq_false htest)]

theorem get?_writeAll (mapping : Mapping) (entries : List (String × PyVal))
    (key : String) : (writeAll mapping entries).get? key
      = (lastValue entries key).or (mapping.get? key) := by
  induction entries using List.reverseRecOn with
  | nil => rfl
  | append_singleton entries e ih =>
    have hwrite : writeAll mapping (entries ++ [e])
        = (writeAll mapping entries).insert e.1 e.2 :=
      List.foldl_concat ..
    rw [hwrite, Dict.get?_insert, lastValue_concat, ih]
    by_cases hkey : e.1 = key
    · rw [if_pos hkey.symm, if_pos hkey]
      rfl
    · rw [if_neg (Ne.symm hkey), if_neg hkey]

theorem lastValue_entries (mapping : Mapping) (key : String) :
    lastValue mapping.entries key = mapping.get? key := by
  refine Option.ext fun v => ?_
  rw [Dict.get?_eq_some_iff]
  unfold lastValue
  refine ⟨fun h => ?_, fun h => ?_⟩
  · obtain ⟨e, he, rfl⟩ := Option.map_eq_some_iff.1 h
    have hmem := List.mem_reverse.1 (List.mem_of_find?_eq_some he)
    have hkey : e.1 = key := by simpa using List.find?_some he
    rw [← hkey]
    exact hmem
  · cases hfind : mapping.entries.reverse.find? fun e => e.1 = key with
    | none =>
      have hnot := List.find?_eq_none.1 hfind (key, v)
        (List.mem_reverse.2 h)
      simp at hnot
    | some e =>
      have hmem := List.mem_reverse.1 (List.mem_of_find?_eq_some hfind)
      have hkey : e.1 = key := by simpa using List.find?_some hfind
      obtain ⟨k, w⟩ := e
      cases hkey
      rw [Dict.entry_unique hmem h]
      rfl

@[simp] theorem get?_update (mapping other : Mapping) (key : String) :
    (update mapping other).get? key
      = (other.get? key).or (mapping.get? key) := by
  unfold update
  rw [get?_writeAll, lastValue_entries]

theorem get?_filter_key (mapping : Mapping) (p : String → Bool)
    (key : String) : (mapping.filter fun key _ => p key).get? key
      = if p key = true then mapping.get? key else none := by
  rw [Dict.get?_filter]
  cases mapping.get? key with
  | none => simp
  | some v => simp [Option.filter]

def coerceMapping : PyVal → Mapping
  | .dict items =>
    writeAll Dict.empty (items.map fun item => (item.1.text, item.2))
  | _ => Dict.empty

theorem sizeOf_coerceMapping {v w : PyVal} {key : String}
    (h : (coerceMapping v).get? key = some w) : sizeOf w < sizeOf v := by
  cases v with
  | dict items =>
    have hget : (writeAll Dict.empty
        (items.map fun item => (item.1.text, item.2))).get? key
        = some w := h
    rw [get?_writeAll, Dict.get?_empty, Option.or_none] at hget
    obtain ⟨e, he, rfl⟩ := Option.map_eq_some_iff.1 hget
    have hmem := List.mem_reverse.1 (List.mem_of_find?_eq_some he)
    obtain ⟨item, hitem, rfl⟩ := List.mem_map.1 hmem
    have hlt := List.sizeOf_lt_of_mem hitem
    obtain ⟨k, v⟩ := item
    simp only [Prod.mk.sizeOf_spec] at hlt
    simp only [PyVal.dict.sizeOf_spec]
    omega
  | _ => cases h

-- ========= the context

structure RuntimePrivateContext where
  permissionContext : PyVal
  policyState : PyVal
  runId : Option String
  parentRunId : Option String
  delegationDepth : Option Int
  requestedModelRoute : Option String
  resolvedModelRoute : Option String
  providerName : Option String
  invocationMode : PyVal
  diagnostics : Mapping
  extensions : Mapping

def RuntimePrivateContext.empty : RuntimePrivateContext :=
  ⟨.none, .none, none, none, none, none, none, none, .none, Dict.empty,
    Dict.empty⟩

/-- An optional text, and an optional number, as a value. -/
def ofText : Option String → PyVal
  | some text => .str text
  | none => .none

def ofInt : Option Int → PyVal
  | some n => .int n
  | none => .none

def coerceText : PyVal → Option String
  | .str text => stripOrNone text
  | _ => none

namespace RuntimePrivateContext

def typedFields (c : RuntimePrivateContext) : List (String × PyVal) :=
  [("permission_context", c.permissionContext),
    ("execution_policy_state", c.policyState),
    ("run_id", ofText c.runId),
    ("parent_run_id", ofText c.parentRunId),
    ("delegation_depth", ofInt c.delegationDepth),
    ("requested_model_route", ofText c.requestedModelRoute),
    ("resolved_model_route", ofText c.resolvedModelRoute),
    ("provider_name", ofText c.providerName),
    ("invocation_mode", c.invocationMode)]

/-- `if value is not None: metadata[key] = value`. -/
def isSet : PyVal → Bool
  | .none => false
  | _ => true

def compatMetadata (c : RuntimePrivateContext) : Mapping :=
  update (writeAll c.extensions (c.typedFields.filter fun e => isSet e.2))
    c.diagnostics

end RuntimePrivateContext

open RuntimePrivateContext (isSet typedFields)

-- =========== the split

/-- The keys of diagnostics: `_PRIVATE_CONTEXT_DIAGNOSTIC_KEYS`, and those
that end with `_diagnostics`. -/
def isDiagnosticKey (key : String) : Bool :=
  key = "memory_retrieval" || key = "memory_diagnostics"
    || key = "legacy_runtime_context_write_blocked"
    || "_diagnostics".toList.isSuffixOf key.toList

def typedKeys : List String :=
  ["permission_context", "execution_policy_state", "run_id",
    "parent_run_id", "delegation_depth", "requested_model_route",
    "resolved_model_route", "provider_name", "invocation_mode"]

/-- The keys a split drops. -/
def droppedKeys : List String :=
  ["prompt_updates", "compaction_summary", "compaction_boundary",
    "compaction_continuation"]

/-- `raw_context.pop(key, None)`, the value. -/
def valueAt (raw : Mapping) (key : String) : PyVal :=
  (raw.get? key).getD .none

def privateContextFromLegacyRuntimeContext (runtimeContext : Mapping) :
    RuntimePrivateContext :=
  let nested := coerceMapping (valueAt runtimeContext "diagnostics")
  let raw := runtimeContext.erase "diagnostics"
  let diagnostics :=
    update nested (raw.filter fun key _ => isDiagnosticKey key)
  let raw := raw.filter fun key _ => !isDiagnosticKey key
  { permissionContext := valueAt raw "permission_context"
    policyState := valueAt raw "execution_policy_state"
    runId := coerceText (valueAt raw "run_id")
    parentRunId := coerceText (valueAt raw "parent_run_id")
    delegationDepth := coerceOptionalInt (valueAt raw "delegation_depth")
    requestedModelRoute := coerceText (valueAt raw "requested_model_route")
    resolvedModelRoute := coerceText (valueAt raw "resolved_model_route")
    providerName := coerceText (valueAt raw "provider_name")
    invocationMode := valueAt raw "invocation_mode"
    diagnostics
    extensions := raw.filter fun key _ =>
      !(droppedKeys.contains key || typedKeys.contains key) }

inductive PrivateContextArg where
  | context (c : RuntimePrivateContext)
  | mapping (items : Mapping)
  | other

def coerceRuntimePrivateContext :
    PrivateContextArg → RuntimePrivateContext
  | .context c => c
  | .mapping items => privateContextFromLegacyRuntimeContext items
  | .other => .empty

def textEntries (items : List (PyKey × PyVal)) : List (String × PyVal) :=
  items.map fun item => (item.1.text, item.2)

def mergeRuntimePrivateContext (privateContext : PrivateContextArg)
    (runtimeContext privateUpdates diagnostics : List (PyKey × PyVal)) :
    RuntimePrivateContext :=
  let merged := writeAll Dict.empty (textEntries runtimeContext)
  let merged := update merged
    (coerceRuntimePrivateContext privateContext).compatMetadata
  let merged := writeAll merged (textEntries privateUpdates)
  let merged := writeAll merged (textEntries diagnostics)
  privateContextFromLegacyRuntimeContext merged

/-- A merge with no updates. -/
def remerge (c : RuntimePrivateContext) : RuntimePrivateContext :=
  mergeRuntimePrivateContext (.context c) [] [] []

/-- `a == b`: mappings are compared without their order. -/
structure Same (a b : RuntimePrivateContext) : Prop where
  permissionContext : a.permissionContext = b.permissionContext
  policyState : a.policyState = b.policyState
  runId : a.runId = b.runId
  parentRunId : a.parentRunId = b.parentRunId
  delegationDepth : a.delegationDepth = b.delegationDepth
  requestedModelRoute : a.requestedModelRoute = b.requestedModelRoute
  resolvedModelRoute : a.resolvedModelRoute = b.resolvedModelRoute
  providerName : a.providerName = b.providerName
  invocationMode : a.invocationMode = b.invocationMode
  diagnostics : ∀ key, a.diagnostics.get? key = b.diagnostics.get? key
  extensions : ∀ key, a.extensions.get? key = b.extensions.get? key

theorem plain_of_typed {key : String} (h : key ∈ typedKeys) :
    key ≠ "diagnostics" ∧ isDiagnosticKey key = false := by
  have hall : ∀ key ∈ typedKeys, key ≠ "diagnostics"
      ∧ isDiagnosticKey key = false := by decide
  exact hall key h

-- ======= what is where

/-- A key the split takes out of the extensions. -/
def Reserved (key : String) : Prop :=
  isDiagnosticKey key = true ∨ key = "diagnostics" ∨ key ∈ droppedKeys
    ∨ key ∈ typedKeys

instance (key : String) : Decidable (Reserved key) :=
  inferInstanceAs (Decidable (_ ∨ _))

section Split

variable (raw : Mapping)

theorem get?_diagnostics (key : String) :
    (privateContextFromLegacyRuntimeContext raw).diagnostics.get? key
      = if isDiagnosticKey key = true then
          (raw.get? key).or
            ((coerceMapping (valueAt raw "diagnostics")).get? key)
        else (coerceMapping (valueAt raw "diagnostics")).get? key := by
  show (update _ ((raw.erase "diagnostics").filter
    fun key _ => isDiagnosticKey key)).get? key = _
  rw [get?_update, get?_filter_key, Dict.get?_erase]
  by_cases hdiag : isDiagnosticKey key = true
  · have hne : key ≠ "diagnostics" := by
      intro heq
      subst heq
      revert hdiag
      decide
    rw [if_pos hdiag, if_pos hdiag, if_neg hne]
  · rw [if_neg hdiag, if_neg hdiag]
    rfl

theorem get?_extensions (key : String) :
    (privateContextFromLegacyRuntimeContext raw).extensions.get? key
      = if Reserved key then none else raw.get? key := by
  show (((raw.erase "diagnostics").filter
    fun key _ => !isDiagnosticKey key).filter fun key _ =>
      !(droppedKeys.contains key || typedKeys.contains key)).get? key = _
  rw [get?_filter_key, get?_filter_key, Dict.get?_erase]
  by_cases hkept : Reserved key
  · rw [if_pos hkept]
    rcases hkept with hdiag | hname | hdrop | htyped
    · simp [hdiag]
    · simp [hname]
    · simp [hdrop]
    · simp [htyped]
  · rw [if_neg hkept]
    unfold Reserved at hkept
    simp only [not_or] at hkept
    obtain ⟨hdiag, hname, hdrop, htyped⟩ := hkept
    simp [hdiag, hname, hdrop, htyped]

theorem valueAt_typed {key : String} (hkey : key ∈ typedKeys) :
    valueAt ((raw.erase "diagnostics").filter
      fun key _ => !isDiagnosticKey key) key = valueAt raw key := by
  obtain ⟨hne, hdiag⟩ := plain_of_typed hkey
  unfold valueAt
  rw [get?_filter_key, Dict.get?_erase, if_neg hne, hdiag]
  rfl

end Split

theorem get?_compatMetadata (c : RuntimePrivateContext) (key : String) :
    c.compatMetadata.get? key = (c.diagnostics.get? key).or
      ((lastValue (c.typedFields.filter fun e => isSet e.2) key).or
        (c.extensions.get? key)) := by
  unfold RuntimePrivateContext.compatMetadata
  rw [get?_update, get?_writeAll]

theorem lastValue_typed_none (c : RuntimePrivateContext) {key : String}
    (hkey : key ∉ typedKeys) :
    lastValue (c.typedFields.filter fun e => isSet e.2) key = none := by
  unfold lastValue
  rw [Option.map_eq_none_iff, List.find?_eq_none]
  intro e he heq
  have hmem := List.mem_of_mem_filter (List.mem_reverse.1 he)
  have hkeys : c.typedFields.map Prod.fst = typedKeys := rfl
  refine hkey ?_
  rw [← hkeys, ← of_decide_eq_true heq]
  exact List.mem_map_of_mem hmem

theorem lastValue_typed {c : RuntimePrivateContext} {key : String}
    {v : PyVal} (h : (key, v) ∈ c.typedFields) :
    lastValue (c.typedFields.filter fun e => isSet e.2) key
      = if isSet v = true then some v else none := by
  have hnodup : (c.typedFields.map Prod.fst).Nodup := by
    have hkeys : c.typedFields.map Prod.fst = typedKeys := rfl
    rw [hkeys]
    decide
  have hvalue : ∀ e ∈ c.typedFields, e.1 = key → e = (key, v) :=
    fun e he hkey => List.inj_on_of_nodup_map hnodup he h hkey
  unfold lastValue
  cases hfind : (c.typedFields.filter fun e => isSet e.2).reverse.find?
      fun e => e.1 = key with
  | some e =>
    obtain ⟨hmem, hset⟩ := List.mem_filter.1
      (List.mem_reverse.1 (List.mem_of_find?_eq_some hfind))
    have heq := hvalue e hmem (by simpa using List.find?_some hfind)
    subst heq
    rw [if_pos hset]
    rfl
  | none =>
    split
    · next hset =>
      have hnot := List.find?_eq_none.1 hfind (key, v)
        (List.mem_reverse.2 (List.mem_filter.2 ⟨h, hset⟩))
      simp at hnot
    · rfl

-- =========== the merge

/-- The mapping that is unpacked when a context is merged. -/
def nestedDiagnostics (c : RuntimePrivateContext) : Mapping :=
  coerceMapping (valueAt (update c.extensions c.diagnostics) "diagnostics")

section Merge

variable (c : RuntimePrivateContext)

theorem remerge_eq : remerge c = privateContextFromLegacyRuntimeContext
    (update Dict.empty c.compatMetadata) := rfl

theorem get?_merged (key : String) :
    (update Dict.empty c.compatMetadata).get? key
      = c.compatMetadata.get? key := by
  rw [get?_update, Dict.get?_empty, Option.or_none]

theorem valueAt_merged (key : String) :
    valueAt (update Dict.empty c.compatMetadata) key
      = valueAt c.compatMetadata key := by
  unfold valueAt
  rw [get?_merged]

theorem nested_eq : coerceMapping
      (valueAt (update Dict.empty c.compatMetadata) "diagnostics")
    = nestedDiagnostics c := by
  have hkey : "diagnostics" ∉ typedKeys := by decide
  unfold nestedDiagnostics
  rw [valueAt_merged]
  unfold valueAt
  rw [get?_compatMetadata, lastValue_typed_none c hkey, Option.none_or,
    get?_update]

theorem remerge_diagnostics (key : String) :
    (remerge c).diagnostics.get? key
      = if isDiagnosticKey key = true then
          (c.compatMetadata.get? key).or ((nestedDiagnostics c).get? key)
        else (nestedDiagnostics c).get? key := by
  rw [remerge_eq, get?_diagnostics, nested_eq, get?_merged]

theorem reserved_diagnostics : Reserved "diagnostics" :=
  Or.inr (Or.inl rfl)

theorem remerge_extensions (key : String) :
    (remerge c).extensions.get? key
      = if Reserved key then none else c.compatMetadata.get? key := by
  rw [remerge_eq, get?_extensions, get?_merged]

/-- What a merge reads for the typed fields. -/
structure ReadsTyped (raw : Mapping) (r : RuntimePrivateContext) : Prop where
  permissionContext : r.permissionContext = valueAt raw "permission_context"
  policyState : r.policyState = valueAt raw "execution_policy_state"
  runId : r.runId = coerceText (valueAt raw "run_id")
  parentRunId : r.parentRunId = coerceText (valueAt raw "parent_run_id")
  delegationDepth :
    r.delegationDepth = coerceOptionalInt (valueAt raw "delegation_depth")
  requestedModelRoute :
    r.requestedModelRoute = coerceText (valueAt raw "requested_model_route")
  resolvedModelRoute :
    r.resolvedModelRoute = coerceText (valueAt raw "resolved_model_route")
  providerName : r.providerName = coerceText (valueAt raw "provider_name")
  invocationMode : r.invocationMode = valueAt raw "invocation_mode"

theorem readsTyped : ReadsTyped c.compatMetadata (remerge c) := by
  have hread : ∀ key ∈ typedKeys,
      valueAt (((update Dict.empty c.compatMetadata).erase
        "diagnostics").filter fun key _ => !isDiagnosticKey key) key
        = valueAt c.compatMetadata key := by
    intro key hkey
    rw [valueAt_typed _ hkey, valueAt_merged]
  have htext := fun key hkey => congrArg coerceText (hread key hkey)
  refine ⟨?_, ?_, ?_, ?_, ?_, ?_, ?_, ?_, ?_⟩
  · exact hread "permission_context" (by decide)
  · exact hread "execution_policy_state" (by decide)
  · exact htext "run_id" (by decide)
  · exact htext "parent_run_id" (by decide)
  · exact congrArg coerceOptionalInt (hread "delegation_depth" (by decide))
  · exact htext "requested_model_route" (by decide)
  · exact htext "resolved_model_route" (by decide)
  · exact htext "provider_name" (by decide)
  · exact hread "invocation_mode" (by decide)

end Merge

theorem coerceText_ofText (v : PyVal) :
    coerceText (ofText (coerceText v)) = coerceText v := by
  cases h : coerceText v with
  | none => rfl
  | some text =>
    cases v with
    | str s =>
      have hstrip : stripOrNone s = some text := h
      exact stripOrNone_of_stripped (stripped_of_stripOrNone hstrip)
    | _ => cases h

theorem coerceOptionalInt_ofInt (n : Option Int) :
    coerceOptionalInt (ofInt n) = n := by
  cases n <;> rfl

-- ====== the two passes

def NestsDiagnosticsOnly (c : RuntimePrivateContext) : Prop :=
  ∀ key ∈ (nestedDiagnostics c).keys, isDiagnosticKey key = true

section SecondPass

variable {c : RuntimePrivateContext}

section

variable (h : NestsDiagnosticsOnly c)
include h

theorem diagnostics_none {key : String} (hkey : isDiagnosticKey key = false) :
    (remerge c).diagnostics.get? key = none := by
  have hnot : ¬ isDiagnosticKey key = true := by
    rw [hkey]
    exact Bool.false_ne_true
  rw [remerge_diagnostics, if_neg hnot, Dict.get?_eq_none_iff]
  exact fun hmem => hnot (h key hmem)

theorem valueAt_typedField {key : String} {v : PyVal}
    (hv : (key, v) ∈ (remerge c).typedFields) :
    valueAt (remerge c).compatMetadata key = v := by
  have hkey : key ∈ typedKeys := by
    have hmem : key ∈ (remerge c).typedFields.map Prod.fst :=
      List.mem_map_of_mem hv
    exact hmem
  have hreserved : Reserved key := Or.inr (Or.inr (Or.inr hkey))
  unfold valueAt
  rw [get?_compatMetadata, diagnostics_none h (plain_of_typed hkey).2,
    lastValue_typed hv, remerge_extensions, if_pos hreserved]
  cases v <;> rfl

theorem nested_empty (key : String) :
    (nestedDiagnostics (remerge c)).get? key = none := by
  have hnone : (update (remerge c).extensions
      (remerge c).diagnostics).get? "diagnostics" = none := by
    rw [get?_update, diagnostics_none h (by decide), remerge_extensions,
      if_pos reserved_diagnostics]
    rfl
  unfold nestedDiagnostics valueAt
  rw [hnone]
  rfl

theorem same_diagnostics (key : String) :
    (remerge (remerge c)).diagnostics.get? key
      = (remerge c).diagnostics.get? key := by
  rw [remerge_diagnostics (remerge c), nested_empty h]
  by_cases hdiag : isDiagnosticKey key = true
  · have hnot : key ∉ typedKeys := by
      intro hmem
      rw [(plain_of_typed hmem).2] at hdiag
      cases hdiag
    have hreserved : Reserved key := Or.inl hdiag
    rw [if_pos hdiag, get?_compatMetadata, lastValue_typed_none _ hnot,
      remerge_extensions, if_pos hreserved]
    simp
  · rw [Bool.not_eq_true] at hdiag
    rw [hdiag, if_neg Bool.false_ne_true, diagnostics_none h hdiag]

theorem same_extensions (key : String) :
    (remerge (remerge c)).extensions.get? key
      = (remerge c).extensions.get? key := by
  rw [remerge_extensions (remerge c)]
  by_cases hkept : Reserved key
  · rw [if_pos hkept, remerge_extensions, if_pos hkept]
  · have hparts := hkept
    unfold Reserved at hparts
    simp only [not_or, Bool.not_eq_true] at hparts
    rw [if_neg hkept, get?_compatMetadata, diagnostics_none h hparts.1,
      lastValue_typed_none _ hparts.2.2.2]
    rfl

theorem same_of_nests : Same (remerge (remerge c)) (remerge c) := by
  have hfirst := readsTyped c
  have hsecond := readsTyped (remerge c)
  -- each typed field is read from what the first pass set it to
  have hvalue : ∀ key v, (key, v) ∈ (remerge c).typedFields →
      valueAt (remerge c).compatMetadata key = v :=
    fun key v => valueAt_typedField h
  have htext : ∀ (key : String) (text : Option String) (v : PyVal),
      (key, ofText text) ∈ (remerge c).typedFields → text = coerceText v →
      coerceText (valueAt (remerge c).compatMetadata key) = text := by
    intro key text v hmem htext
    rw [hvalue key _ hmem, htext, coerceText_ofText]
  refine ⟨?_, ?_, ?_, ?_, ?_, ?_, ?_, ?_, ?_, same_diagnostics h,
    same_extensions h⟩
  · rw [hsecond.permissionContext]
    exact hvalue _ _ (by simp [typedFields])
  · rw [hsecond.policyState]
    exact hvalue _ _ (by simp [typedFields])
  · rw [hsecond.runId]
    exact htext _ _ _ (by simp [typedFields]) hfirst.runId
  · rw [hsecond.parentRunId]
    exact htext _ _ _ (by simp [typedFields]) hfirst.parentRunId
  · rw [hsecond.delegationDepth, hvalue _ (ofInt (remerge c).delegationDepth)
      (by simp [typedFields]), coerceOptionalInt_ofInt]
  · rw [hsecond.requestedModelRoute]
    exact htext _ _ _ (by simp [typedFields]) hfirst.requestedModelRoute
  · rw [hsecond.resolvedModelRoute]
    exact htext _ _ _ (by simp [typedFields]) hfirst.resolvedModelRoute
  · rw [hsecond.providerName]
    exact htext _ _ _ (by simp [typedFields]) hfirst.providerName
  · rw [hsecond.invocationMode]
    exact hvalue _ _ (by simp [typedFields])

end

theorem not_same_of_nested {key : String}
    (hkey : key ∈ (nestedDiagnostics c).keys)
    (hdiag : isDiagnosticKey key = false) :
    ¬ Same (remerge (remerge c)) (remerge c) := by
  intro hsame
  have hnot : ∀ {k : String}, isDiagnosticKey k = false →
      ¬ isDiagnosticKey k = true := by
    intro k hk
    rw [hk]
    exact Bool.false_ne_true
  obtain ⟨v, hv⟩ := Dict.mem_keys_iff.1 hkey
  have hfirst := hsame.diagnostics key
  rw [remerge_diagnostics (remerge c), if_neg (hnot hdiag),
    remerge_diagnostics c, if_neg (hnot hdiag), hv] at hfirst
  -- so the second pass unpacks a mapping, found under `diagnostics`
  have hname : isDiagnosticKey "diagnostics" = false := by decide
  have hlook : (update (remerge c).extensions
      (remerge c).diagnostics).get? "diagnostics"
      = (remerge c).diagnostics.get? "diagnostics" := by
    rw [get?_update, remerge_extensions, if_pos reserved_diagnostics,
      Option.or_none]
  have hunpacked : nestedDiagnostics (remerge c)
      = coerceMapping (((remerge c).diagnostics.get? "diagnostics").getD
        .none) := by
    unfold nestedDiagnostics valueAt
    rw [hlook]
  cases hinner : (remerge c).diagnostics.get? "diagnostics" with
  | none =>
    rw [hunpacked, hinner] at hfirst
    cases hfirst
  | some inner =>
    rw [hinner] at hunpacked
    -- and that mapping would hold itself
    have hself := hsame.diagnostics "diagnostics"
    rw [remerge_diagnostics (remerge c), if_neg (hnot hname), hinner,
      hunpacked] at hself
    exact absurd (sizeOf_coerceMapping hself) (lt_irrefl _)

end SecondPass

/-- Merging a context with nothing a second time changes nothing exactly
when the mapping unpacked the first time has keys of diagnostics only. -/
theorem merge_idempotent_iff (c : RuntimePrivateContext) :
    Same (remerge (remerge c)) (remerge c) ↔ NestsDiagnosticsOnly c := by
  refine ⟨fun hsame key hkey => ?_, same_of_nests⟩
  by_contra hdiag
  rw [Bool.not_eq_true] at hdiag
  exact not_same_of_nested hkey hdiag hsame

/-- A context that keeps a mapping of diagnostics among its extensions. -/
def nestingContext : RuntimePrivateContext :=
  { RuntimePrivateContext.empty with
    extensions := writeAll Dict.empty
      [("diagnostics", .dict [(.str "run_id", .str "r1")])] }

/-- The unpacked key sets a typed field on the second pass. -/
theorem merge_not_idempotent :
    ¬ ∀ c, Same (remerge (remerge c)) (remerge c) := by
  intro hall
  have hsame := (hall nestingContext).runId
  have hfirst : (remerge nestingContext).runId = none := by decide +kernel
  have hsecond : (remerge (remerge nestingContext)).runId = some "r1" := by
    decide +kernel
  rw [hfirst, hsecond] at hsame
  cases hsame

end WeaveRuntime.Contracts
