/-
The arguments of a tool call, both ways.

`toolInput_roundTrip` puts the inductions over schemas together for the
schema of a tool and the payload of a call. The empty arguments of a tool
with one optional enum are the input on which they part: the strict schema
admits null for the type of the property and not for its enum.
-/
import WeaveRuntime.ToolSchemas.RoundTrip
import Mathlib.Data.Nat.Pairing
import Mathlib.Data.Rat.Encodable
import Mathlib.Logic.Equiv.List

namespace WeaveRuntime.ToolSchemas

open Lib
open Python

variable {text : JsonText} {meaning : String → Json → Json → Bool}
  {toolName : String}

-- ============ the tool

theorem oneType_strict {type : Option Json} (h : OneType type) :
    OneType (some (applyOptionalNullable (typeNames type) true)) := by
  have hnames : typeNames (some (applyOptionalNullable (typeNames type) true))
      = typeNames type := by
    rw [typeNames_applyOptionalNullable]
    rfl
  refine ⟨?_, ?_, ?_, ?_, ?_⟩
  · unfold applyOptionalNullable
    split
    · rfl
    · simp [givesTypes]
  · rw [hnames]
    exact h.known
  · rw [hnames]
    exact h.nodup
  · rw [hnames]
    exact h.nonempty
  · rw [hnames]
    exact h.single

/-- What a tool's schema is where it is accepted: an object that is not
open. -/
theorem normalizeToolSchema_cases {tool : ToolDefinition}
    {n : NormalizedToolSchema} (h : normalizeToolSchema tool = .ok n)
    (hone : OneTyped tool.inputSchema) :
    normalizeSchemaNode tool.name tool.inputSchema "$.input_schema" true
      = .ok n
    ∧ ∃ k ps is ad, tool.inputSchema = .mapping k ps is ad
      ∧ opens k ps ad = false ∧ "object" ∈ typeNames k.type := by
  unfold normalizeToolSchema at h
  by_cases hempty : !isMapping tool.inputSchema
      ∨ isEmptyMapping tool.inputSchema
  · simp only [hempty, if_true] at h
    cases h
  · simp only [hempty, if_false] at h
    obtain ⟨m, hm, h⟩ := bind_eq_ok.1 h
    obtain ⟨types, htypes, h⟩ := bind_eq_ok.1 h
    have hboth : "object" ∈ types ∧ m = n := by
      by_cases hobject : "object" ∉ types
      · rw [if_pos hobject] at h
        cases h
      · rw [if_neg hobject] at h
        cases h
        exact ⟨not_not.1 hobject, rfl⟩
    obtain ⟨hobject, rfl⟩ := hboth
    refine ⟨hm, ?_⟩
    generalize tool.inputSchema = s at hm hone
    obtain @⟨k, ps, is, ad, htype, -, -⟩ := hone
    refine ⟨k, ps, is, ad, rfl, ?_⟩
    have hstrict := oneType_strict htype
    have hcoerced : coerceSchemaTypes tool.name "$.input_schema"
        (strictKeywords k true).type = .ok (typeNames k.type) := by
      refine (coerceSchemaTypes_eq _ _ hstrict).trans ?_
      rw [typeNames_applyOptionalNullable]
      rfl
    obtain ⟨-, rfl⟩ | ⟨hopens, hin, -⟩ | ⟨-, harray, t, item, path', -, -, rfl⟩
        | ⟨-, hout, -, rfl⟩ := normalizeSchemaNode_cases htype hm
    · have hstring : types = ["string"] := by
        have hname := (jsonTypes_stripped "string" (by decide)).1
        have hcoerce : coerceSchemaTypes tool.name "$.input_schema"
            (some (.str "string")) = .ok ["string"] := by
          rw [coerceSchemaTypes, hname]
          rfl
        have heq := hcoerce.symm.trans htypes
        exact (Except.ok.inj heq).symm
      rw [hstring] at hobject
      exact absurd hobject (by decide)
    · exact ⟨hopens, hin⟩
    · have heq := Except.ok.inj (hcoerced.symm.trans htypes)
      rw [← heq] at hobject
      exact absurd hobject (not_object_of_array htype harray)
    · have heq := Except.ok.inj (hcoerced.symm.trans htypes)
      rw [← heq] at hobject
      exact absurd hobject hout

theorem obj_or_null_of_strict {k : Keywords} {ps : Slot (String × Schema)}
    {is : Option Schema} {ad : Additional Schema} {path : String}
    {n : NormalizedToolSchema} {w : Json}
    (hnode : normalizeSchemaNode toolName (.mapping k ps is ad) path true
      = .ok n) (hone : OneTyped (.mapping k ps is ad))
    (hobject : "object" ∈ typeNames k.type)
    (haccepts : n.schema.accepts meaning w = true) :
    (∃ fs, w = .obj fs) ∨ w = .null ∨ opens k ps ad = true := by
  obtain ⟨htype, -, -⟩ := hone
  obtain ⟨hopens, -⟩ | ⟨-, -, children, -, rfl⟩ | ⟨-, harray, -⟩
      | ⟨-, hout, -⟩ := normalizeSchemaNode_cases htype hnode
  · exact Or.inr (Or.inr hopens)
  · obtain ⟨hstrict, -⟩ := (Schema.accepts_mapping_iff meaning).1 haccepts
    have htyped := typed_of_strict htype hstrict (by simp [omitsNull])
    rcases obj_or_null htype hobject htyped with h | h
    · exact Or.inl h
    · exact Or.inr (Or.inl h)
  · exact absurd hobject (not_object_of_array htype harray)
  · exact absurd hobject hout

/-- Tool arguments across the strict schema, both ways: a valid value
reaches the provider and comes back exactly where the keywords the strict
schema copies carry over, and a value of the strict schema is restored to
a valid one exactly where it meets the keywords that were copied, narrowed
or dropped. -/
theorem toolInput_roundTrip (text : JsonText)
    (meaning : String → Json → Json → Bool) (tool : ToolDefinition)
    (n : NormalizedToolSchema) (hn : normalizeToolSchema tool = .ok n)
    (hone : OneTyped tool.inputSchema) :
    (∀ v : Json, v.Proper → tool.inputSchema.accepts meaning v = true →
      declaredOnly tool.inputSchema v = true →
      ((n.schema.accepts meaning (encode text tool.inputSchema v) = true
          ∧ ∃ fs, restoreToolInputPayload text tool.name n.restorationPlan
              (encode text tool.inputSchema v) = .ok fs
            ∧ Json.obj fs = nullFilled tool.inputSchema v)
        ↔ v.isNull = false
          ∧ Carries text meaning tool.inputSchema true v))
    ∧ ∀ w : Json, w.Proper → n.schema.accepts meaning w = true →
      holdsObjects text tool.inputSchema w = true →
      ((∃ fs, restoreToolInputPayload text tool.name n.restorationPlan w
            = .ok fs
          ∧ tool.inputSchema.accepts meaning (.obj fs) = true)
        ↔ (w.isNull = true
            ∧ tool.inputSchema.accepts meaning (.obj []) = true)
          ∨ (w.isNull = false
            ∧ Returns text meaning tool.inputSchema w)) := by
  obtain ⟨hnode, k, ps, is, ad, hschema, hopens, hobject⟩ :=
    normalizeToolSchema_cases hn hone
  have hproper := tool.proper
  generalize tool.inputSchema = s at hnode hschema hone hproper
  constructor
  · intro v hv haccepts hdeclared
    obtain ⟨hencoded, hholds⟩ :=
      encode_proper text s hone hproper hv haccepts hdeclared
    have hrestore := restoreRoundTripValue_plain (p := []) s hnode hone
      hproper hencoded hholds
    have hplain := plain_encode text s hone hproper hv haccepts
      hdeclared
    have hiff := encode_accepts_iff text s hnode hone hproper
      haccepts hdeclared
    have hstays : ((encode text s v).isNull && omitsNull s.keywords true)
        = false := by simp [omitsNull]
    rw [hstays, hplain] at hrestore
    have hpayload : restoreToolInputPayload text tool.name n.restorationPlan
        (encode text s v)
        = .ok ((nullFilled s v).fields?.getD []) := by
      unfold restoreToolInputPayload
      rw [hrestore]
      cases nullFilled s v <;> rfl
    rw [hpayload, hiff]
    subst hschema
    obtain ⟨htype, -, -⟩ := hone
    obtain ⟨htyped, -⟩ := (Schema.accepts_mapping_iff meaning).1 haccepts
    rcases obj_or_null htype hobject htyped with ⟨fs, rfl⟩ | rfl
    · rw [nullFilled_obj fs hopens]
      constructor
      · intro h
        obtain ⟨hcarries, -⟩ := h
        exact ⟨rfl, hcarries⟩
      · intro h
        obtain ⟨-, hcarries⟩ := h
        exact ⟨hcarries, _, rfl, rfl⟩
    · rw [nullFilled_flat rfl rfl]
      constructor
      · intro h
        obtain ⟨-, fs, -, hnull⟩ := h
        cases hnull
      · intro h
        obtain ⟨hnull, -⟩ := h
        cases hnull
  · intro w hw haccepts hholds
    have hstays : (w.isNull && omitsNull s.keywords true) = false := by
      simp [omitsNull]
    have hrestore := restoreRoundTripValue_plain (p := []) s hnode hone
      hproper hw hholds
    have hiff := accepts_plain_iff s hnode hone hproper hw haccepts hholds
      hstays
    rw [hstays] at hrestore
    have hpayload : restoreToolInputPayload text tool.name n.restorationPlan w
        = .ok ((plain text s w).fields?.getD []) := by
      unfold restoreToolInputPayload
      rw [hrestore]
      cases plain text s w <;> rfl
    rw [hpayload]
    subst hschema
    rcases obj_or_null_of_strict hnode hone hobject haccepts
      with ⟨fs, rfl⟩ | rfl | hopen
    · have hplain : plain text (.mapping k ps is ad) (.obj fs) = _ :=
        plain_obj fs hopens hobject
      rw [hplain] at hiff ⊢
      constructor
      · intro h
        obtain ⟨gs, hgs, haccept⟩ := h
        cases hgs
        exact Or.inr ⟨rfl, hiff.1 haccept⟩
      · intro h
        rcases h with ⟨hnull, _⟩ | ⟨_, hreturns⟩
        · cases hnull
        · exact ⟨_, rfl, hiff.2 hreturns⟩
    · rw [plain_null]
      constructor
      · intro h
        obtain ⟨gs, hgs, haccept⟩ := h
        cases hgs
        exact Or.inl ⟨rfl, haccept⟩
      · intro h
        rcases h with ⟨_, haccept⟩ | ⟨hnull, _⟩
        · exact ⟨[], rfl, haccept⟩
        · cases hnull
    · rw [hopens] at hopen
      cases hopen

-- ============ an input

/-- One optional property with an enum. -/
def modeTool : ToolDefinition where
  name := "run"
  inputSchema := .mapping { type := some (.str "object") }
    (.given [("mode", .mapping
      { type := some (.str "string"), enum := some [.str "fast"] }
      .absent none .absent)])
    none .forbidden
  proper := by simp [Schema.Proper, Schema.ProperEntries]

/-- No further keyword asks anything. -/
def noFurther : String → Json → Json → Bool := fun _ _ _ => true

theorem oneType_str {name : String} (h : name ∈ jsonTypes) :
    OneType (some (.str name)) := by
  refine ⟨rfl, ?_, ?_, ?_, ?_⟩
  · intro other hother
    rw [List.mem_singleton.1 hother]
    exact h
  · exact List.nodup_singleton name
  · exact List.cons_ne_nil _ _
  · intro a ha b hb _ _
    rw [List.mem_singleton.1 ha, List.mem_singleton.1 hb]

theorem oneTyped_modeTool : OneTyped modeTool.inputSchema := by
  refine .mapping (oneType_str (by decide)) ?_ ?_
  · intro e he
    rw [List.mem_singleton.1 he]
    refine .mapping (oneType_str (by decide)) ?_ ?_
    · intro e' he'
      cases he'
    · intro s hs
      cases hs
  · intro s hs
    cases hs

theorem encode_modeTool (text : JsonText) :
    encode text modeTool.inputSchema (.obj []) = .obj [("mode", .null)] := by
  unfold modeTool
  rw [encode_obj [] (by decide)]
  rfl

theorem modeTool_normalized :
    ∃ n, normalizeToolSchema modeTool = .ok n
      ∧ n.schema.accepts noFurther (.obj [("mode", .null)]) = false := by
  have h : (normalizeToolSchema modeTool).toOption.map (fun n =>
      n.schema.accepts noFurther (.obj [("mode", .null)])) = some false := by
    decide +kernel
  cases hn : normalizeToolSchema modeTool with
  | error e =>
    rw [hn] at h
    cases h
  | ok n =>
    rw [hn] at h
    exact ⟨n, rfl, Option.some.inj h⟩

/-- The empty object is valid for the tool, and its encoding, where the
mode is null, is not valid for the strict schema: the type of the mode
admits null, its copied enum does not. -/
theorem toolInput_enum_lost :
    ∃ n, normalizeToolSchema modeTool = .ok n
      ∧ modeTool.inputSchema.accepts noFurther (.obj []) = true
      ∧ declaredOnly modeTool.inputSchema (.obj []) = true
      ∧ ∀ text : JsonText, n.schema.accepts noFurther
        (encode text modeTool.inputSchema (.obj [])) = false := by
  obtain ⟨n, hn, hlost⟩ := modeTool_normalized
  refine ⟨n, hn, by decide +kernel, by decide +kernel, ?_⟩
  intro text
  rw [encode_modeTool]
  exact hlost

-- ============= a codec

def stringCode (s : String) : ℕ :=
  Encodable.encode (s.toList.map Char.toNat)

theorem stringCode_injective {s t : String}
    (h : stringCode s = stringCode t) : s = t := by
  have hlist := Encodable.encode_injective h
  have hchars := List.map_injective_iff.2
    (fun a b hab => Char.toNat_inj.1 hab) hlist
  exact String.toList_inj.1 hchars

mutual

/-- A number for every value. -/
def jsonCode : Json → ℕ
  | .null => Nat.pair 0 0
  | .bool b => Nat.pair 1 b.toNat
  | .num q => Nat.pair 2 (Encodable.encode q)
  | .str s => Nat.pair 3 (stringCode s)
  | .arr xs => Nat.pair 4 (itemsCode xs)
  | .obj fs => Nat.pair 5 (fieldsCode fs)

def itemsCode : List Json → ℕ
  | [] => 0
  | x :: xs => Nat.pair (jsonCode x) (itemsCode xs) + 1

def fieldsCode : List (String × Json) → ℕ
  | [] => 0
  | (k, x) :: fs =>
    Nat.pair (stringCode k) (Nat.pair (jsonCode x) (fieldsCode fs)) + 1

end

mutual

theorem jsonCode_injective {v w : Json} (h : jsonCode v = jsonCode w) :
    v = w := by
  cases v with
  | null => cases w <;> simp_all [jsonCode, Nat.pair_eq_pair]
  | bool b =>
    cases w with
    | bool c =>
      simp only [jsonCode, Nat.pair_eq_pair, true_and] at h
      cases b <;> cases c <;> simp_all
    | _ => simp_all [jsonCode, Nat.pair_eq_pair]
  | num q => cases w <;> simp_all [jsonCode, Nat.pair_eq_pair]
  | str s =>
    cases w with
    | str t =>
      simp only [jsonCode, Nat.pair_eq_pair, true_and] at h
      rw [stringCode_injective h]
    | _ => simp_all [jsonCode, Nat.pair_eq_pair]
  | arr xs =>
    cases w with
    | arr ys =>
      simp only [jsonCode, Nat.pair_eq_pair, true_and] at h
      rw [itemsCode_injective h]
    | _ => simp_all [jsonCode, Nat.pair_eq_pair]
  | obj fs =>
    cases w with
    | obj gs =>
      simp only [jsonCode, Nat.pair_eq_pair, true_and] at h
      rw [fieldsCode_injective h]
    | _ => simp_all [jsonCode, Nat.pair_eq_pair]

theorem itemsCode_injective {xs ys : List Json}
    (h : itemsCode xs = itemsCode ys) : xs = ys := by
  cases xs with
  | nil => cases ys <;> simp_all [itemsCode]
  | cons x xs =>
    cases ys with
    | nil => simp_all [itemsCode]
    | cons y ys =>
      simp only [itemsCode, Nat.add_right_cancel_iff,
        Nat.pair_eq_pair] at h
      rw [jsonCode_injective h.1, itemsCode_injective h.2]

theorem fieldsCode_injective {fs gs : List (String × Json)}
    (h : fieldsCode fs = fieldsCode gs) : fs = gs := by
  cases fs with
  | nil => cases gs <;> simp_all [fieldsCode]
  | cons f fs =>
    cases gs with
    | nil => simp_all [fieldsCode]
    | cons g gs =>
      obtain ⟨k, x⟩ := f
      obtain ⟨l, y⟩ := g
      simp only [fieldsCode, Nat.add_right_cancel_iff,
        Nat.pair_eq_pair] at h
      rw [stringCode_injective h.1, jsonCode_injective h.2.1,
        fieldsCode_injective h.2.2]

end

/-- A text for every value: the JSON text of the empty object, and some
other text of its own for each other value. -/
def sampleDumps : Json → String
  | .obj [] => "{}"
  | v => String.ofList (List.replicate (jsonCode v) '#')

theorem sampleDumps_injective {v w : Json}
    (h : sampleDumps v = sampleDumps w) : v = w := by
  have hform : ∀ u, (u = .obj [] ∧ sampleDumps u = "{}")
      ∨ sampleDumps u = String.ofList (List.replicate (jsonCode u) '#') := by
    intro u
    unfold sampleDumps
    split
    · exact Or.inl ⟨rfl, rfl⟩
    · exact Or.inr rfl
  have hbrace : ∀ m, "{}" ≠ String.ofList (List.replicate m '#') := by
    intro m heq
    have hmem : '{' ∈ List.replicate m '#' := by
      rw [← String.toList_ofList (l := List.replicate m '#'), ← heq]
      decide
    exact absurd (List.eq_of_mem_replicate hmem) (by decide)
  rcases hform v with ⟨hv, hdv⟩ | hdv
  · rcases hform w with ⟨hw, _⟩ | hdw
    · rw [hv, hw]
    · exact absurd (hdv.symm.trans (h.trans hdw)) (hbrace _)
  · rcases hform w with ⟨_, hdw⟩ | hdw
    · exact absurd (hdw.symm.trans (h.symm.trans hdv)) (hbrace _)
    · have heq := hdv.symm.trans (h.trans hdw)
      have hlist := String.ofList_inj.1 heq
      have hlen := congrArg List.length hlist
      rw [List.length_replicate, List.length_replicate] at hlen
      exact jsonCode_injective hlen

open Classical in
/-- A codec that reads back what it has written. -/
noncomputable def sampleText : JsonText where
  dumps := sampleDumps
  loads s :=
    if h : ∃ v, sampleDumps v = s then .ok h.choose
    else .error "Expecting value"
  loads_dumps v _ := by
    have hex : ∃ w, sampleDumps w = sampleDumps v := ⟨v, rfl⟩
    rw [dif_pos hex, sampleDumps_injective hex.choose_spec]

/-- The mode that is given reaches the provider and comes back. -/
theorem toolInput_roundTrip_fast :
    ∃ n, normalizeToolSchema modeTool = .ok n
      ∧ n.schema.accepts noFurther (encode sampleText modeTool.inputSchema
        (.obj [("mode", .str "fast")])) = true
      ∧ ∃ fs, restoreToolInputPayload sampleText modeTool.name
          n.restorationPlan (encode sampleText modeTool.inputSchema
            (.obj [("mode", .str "fast")])) = .ok fs
        ∧ Json.obj fs = nullFilled modeTool.inputSchema
          (.obj [("mode", .str "fast")]) := by
  obtain ⟨n, hn, -⟩ := modeTool_normalized
  have hproper : (Json.obj [("mode", .str "fast")]).Proper := by
    simp [Json.Proper, Json.ProperFields]
  have hround := (toolInput_roundTrip sampleText noFurther modeTool n hn
    oneTyped_modeTool).1 _ hproper (by decide +kernel) (by decide +kernel)
  refine ⟨n, hn, hround.2 ⟨rfl, ?_⟩⟩
  refine .node (by decide +kernel) rfl ?_ ?_ ?_
  · intro fs hfs f hf s hs
    cases hfs
    rw [List.mem_singleton.1 hf] at hs ⊢
    cases hs
    refine .node (by decide +kernel) ?_ ?_ ?_ ?_
    · rw [encode_flat rfl rfl]
      decide +kernel
    · intro fs' hfs'
      cases hfs'
    · intro fs' hfs'
      cases hfs'
    · intro xs hxs
      cases hxs
  · intro fs hfs e he
    cases hfs
    exact absurd he (by simp [omitted, Slot.declared])
  · intro xs hxs
    cases hxs

end WeaveRuntime.ToolSchemas
