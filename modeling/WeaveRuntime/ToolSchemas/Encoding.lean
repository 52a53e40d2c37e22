/-
Tool arguments across the strict schema and back.

`encode` spells a value of the tool's own schema for the strict one: an
omitted property becomes null, the value of an open object its JSON text.
`plain` reads a value of the strict schema the other way. Neither looks at
the restoration plan; that the plan's restoration computes `plain` is a
theorem of its own (`restoreRoundTripValue_plain`).
-/
import WeaveRuntime.ToolSchemas.Model

namespace WeaveRuntime.ToolSchemas

open Lib
open Python

-- ============== domain

def givesTypes : Option Json → Bool
  | some (.str _) => true
  | some (.arr items) => items.all fun x =>
    match x with
    | .str _ => true
    | _ => false
  | _ => false

/-- A `type` keyword with one type, possibly together with null. -/
structure OneType (type : Option Json) : Prop where
  gives : givesTypes type = true
  known : ∀ name ∈ typeNames type, name ∈ jsonTypes
  nodup : (typeNames type).Nodup
  nonempty : typeNames type ≠ []
  single : ∀ a ∈ typeNames type, ∀ b ∈ typeNames type,
    a ≠ "null" → b ≠ "null" → a = b

/-- The type of a node admits null. -/
def nullable (s : Schema) : Bool :=
  decide ("null" ∈ typeNames s.keywords.type)

/-- An object without declared properties that is not closed. -/
def opens (k : Keywords) (ps : Slot (String × Schema))
    (ad : Additional Schema) : Bool :=
  decide ("object" ∈ typeNames k.type) && ps.declared.isEmpty
    && !isForbidden ad

/-- The declared properties an object leaves out. -/
def omitted (ps : Slot (String × Schema)) (fs : List (String × Json)) :
    List (String × Schema) :=
  ps.declared.filter fun e => (fs.lookup e.1).isNone

/-- Every node has one type, possibly together with null. -/
inductive OneTyped : Schema → Prop where
  | mapping {k : Keywords} {ps : Slot (String × Schema)}
      {is : Option Schema} {ad : Additional Schema}
      (type : OneType k.type)
      (properties : ∀ e ∈ ps.declared, OneTyped e.2)
      (items : ∀ s, is = some s → OneTyped s) :
      OneTyped (.mapping k ps is ad)

/-- The value uses only declared properties of closed or declared
objects. -/
def declaredOnly : Schema → Json → Bool :=
  Schema.fold (fun k ps ad child item v =>
    opens k ps ad
      || (v.fields?.all fun fs =>
          fs.all fun f => (child f.1).any fun declared => declared f.2)
        && (v.items?.all fun xs =>
          xs.all fun x => item.all fun declared => declared x))
    fun _ => true

-- ============ encoding

section Encoding

variable (text : JsonText)

/-- The value of an open object as the surrogate string holds it. -/
def encodeOpen : Json → Json
  | .obj fs => .str (text.dumps (.obj fs))
  | v => v

/-- The value with each omitted property null and each value of an open
object its JSON text. -/
def encode : Schema → Json → Json :=
  Schema.fold (fun k ps ad child item v =>
    if opens k ps ad then encodeOpen text v
    else
      match v with
      | .obj fs =>
        .obj ((fs.map fun f => (f.1, ((child f.1).getD id) f.2))
          ++ (omitted ps fs).map fun e => (e.1, .null))
      | .arr xs => .arr (xs.map (item.getD id))
      | v => v)
    id

/-- The value with each omitted property null whose own type admits
null. -/
def nullFilled : Schema → Json → Json :=
  Schema.fold (fun k ps ad child item v =>
    if opens k ps ad then v
    else
      match v with
      | .obj fs =>
        .obj ((fs.map fun f => (f.1, ((child f.1).getD id) f.2))
          ++ ((omitted ps fs).filter fun e => nullable e.2).map
            fun e => (e.1, .null))
      | .arr xs => .arr (xs.map (item.getD id))
      | v => v)
    id

/-- What the string of a surrogate holds. -/
def decodeOpen : Json → Json
  | .str s => (text.loads s).toOption.getD (.str s)
  | v => v

/-- A null that stands for an omitted property. -/
def standsForOmission (k : Keywords) (ps : Slot (String × Schema))
    (name : String) (v : Json) : Bool :=
  v.isNull && !decide (name ∈ declaredRequired k)
    && (ps.declared.lookup name).any fun s => !nullable s

/-- The value with the nulls of omitted properties left out, and each
surrogate string replaced by the object it holds. -/
def plain : Schema → Json → Json :=
  Schema.fold (fun k ps ad child item v =>
    if opens k ps ad then decodeOpen text v
    else if "object" ∈ typeNames k.type then
      match v with
      | .obj fs =>
        .obj (Fields.adjust (fun name x =>
          if standsForOmission k ps name x then none
          else some (((child name).getD id) x)) fs)
      | v => v
    else if "array" ∈ typeNames k.type then
      match v with
      | .arr xs => .arr (xs.map (item.getD id))
      | v => v
    else v)
    id

def holdsObject : Json → Bool
  | .null => true
  | .str s => ((text.loads s).toOption.bind Json.fields?).isSome
  | _ => false

/-- The surrogate strings of the value hold JSON objects. -/
def holdsObjects : Schema → Json → Bool :=
  Schema.fold (fun k ps ad child item v =>
    if opens k ps ad then holdsObject text v
    else
      (v.fields?.all fun fs =>
        fs.all fun f => (child f.1).all fun holds => holds f.2)
      && (v.items?.all fun xs =>
        xs.all fun x => item.all fun holds => holds x))
    fun _ => true

-- ========== conditions

variable (meaning : String → Json → Json → Bool)

/-- The keywords that the strict schema copies unchanged accept the
encoded value: at every node its own enum and further keywords, at an
omitted property those of the property, of null. An open object that has
to be given is not null. -/
inductive Carries : Schema → Bool → Json → Prop where
  | surrogate {k : Keywords} {ps : Slot (String × Schema)}
      {is : Option Schema} {ad : Additional Schema} {required : Bool}
      {v : Json} (hopens : opens k ps ad = true)
      (keeps : k.keeps meaning (encodeOpen text v) = true)
      (given : v.isNull = true → required = false) :
      Carries (.mapping k ps is ad) required v
  | node {k : Keywords} {ps : Slot (String × Schema)}
      {is : Option Schema} {ad : Additional Schema} {required : Bool}
      {v : Json} (hopens : opens k ps ad = false)
      (keeps : k.keeps meaning (encode text (.mapping k ps is ad) v) = true)
      (fields : ∀ fs, v = .obj fs → ∀ f ∈ fs, ∀ s,
        ps.declared.lookup f.1 = some s →
          Carries s (decide (f.1 ∈ declaredRequired k)) f.2)
      (omits : ∀ fs, v = .obj fs → ∀ e ∈ omitted ps fs,
        e.2.keywords.keeps meaning .null = true)
      (items : ∀ xs, v = .arr xs → ∀ s, is = some s → ∀ x ∈ xs,
        Carries s true x) :
      Carries (.mapping k ps is ad) required v

/-- What is read back meets the keywords that the strict schema copies
unchanged, narrows or drops: at every node its own enum and further
keywords, at an object its required names, at an open object everything
its schema asks of the fields. -/
inductive Returns : Schema → Json → Prop where
  | surrogate {k : Keywords} {ps : Slot (String × Schema)}
      {is : Option Schema} {ad : Additional Schema} {v : Json}
      (hopens : opens k ps ad = true)
      (held : ∀ fs, decodeOpen text v = .obj fs →
        k.keeps meaning (.obj fs) = true ∧ k.complete fs = true
          ∧ ∀ f ∈ fs, Schema.acceptsAdditional meaning ad f.2 = true) :
      Returns (.mapping k ps is ad) v
  | node {k : Keywords} {ps : Slot (String × Schema)}
      {is : Option Schema} {ad : Additional Schema} {v : Json}
      (hopens : opens k ps ad = false)
      (keeps : k.keeps meaning (plain text (.mapping k ps is ad) v) = true)
      (required : ∀ fs, v = .obj fs → ∀ names, k.required = some names →
        ∀ name ∈ names, ∃ x, fs.lookup name = some x
          ∧ standsForOmission k ps name x = false)
      (fields : ∀ fs, v = .obj fs → ∀ f ∈ fs, ∀ s,
        ps.declared.lookup f.1 = some s →
          standsForOmission k ps f.1 f.2 = false → Returns s f.2)
      (items : ∀ xs, v = .arr xs → ∀ s, is = some s → ∀ x ∈ xs,
        Returns s x) :
      Returns (.mapping k ps is ad) v

end Encoding

-- ============= by node

section Nodes

variable {text : JsonText} {k : Keywords} {ps : Slot (String × Schema)}
  {is : Option Schema} {ad : Additional Schema}

theorem declaredOnly_mapping (v : Json) :
    declaredOnly (.mapping k ps is ad) v
      = (opens k ps ad
        || (v.fields?.all fun fs => fs.all fun f =>
            ((ps.declared.lookup f.1).map declaredOnly).any fun d => d f.2)
          && (v.items?.all fun xs => xs.all fun x =>
            (is.map declaredOnly).all fun d => d x)) := by
  unfold declaredOnly
  rw [Schema.fold_mapping]

theorem declaredOnly_obj {fs : List (String × Json)}
    (ho : opens k ps ad = false)
    (h : declaredOnly (.mapping k ps is ad) (.obj fs) = true) :
    ∀ f ∈ fs, ∃ s, ps.declared.lookup f.1 = some s
      ∧ declaredOnly s f.2 = true := by
  intro f hf
  rw [declaredOnly_mapping, ho] at h
  simp only [Json.fields?_obj, Json.items?_obj, Option.all_some,
    Option.all_none, Bool.false_or, Bool.and_true, List.all_eq_true] at h
  have hfield := h f hf
  rw [Option.any_map, Option.any_eq_true] at hfield
  exact hfield

theorem declaredOnly_arr {s : Schema} {xs : List Json}
    (ho : opens k ps ad = false)
    (h : declaredOnly (.mapping k ps (some s) ad) (.arr xs) = true) :
    ∀ x ∈ xs, declaredOnly s x = true := by
  rw [declaredOnly_mapping, ho] at h
  simpa using h

theorem encode_open (v : Json) (ho : opens k ps ad = true) :
    encode text (.mapping k ps is ad) v = encodeOpen text v := by
  unfold encode
  rw [Schema.fold_mapping, if_pos ho]

variable (fs : List (String × Json))

theorem encode_obj (ho : opens k ps ad = false) :
    encode text (.mapping k ps is ad) (.obj fs)
      = .obj ((fs.map fun f => (f.1,
            (((ps.declared.lookup f.1).map (encode text)).getD id) f.2))
          ++ (omitted ps fs).map fun e => (e.1, .null)) := by
  unfold encode
  rw [Schema.fold_mapping, if_neg (by rw [ho]; decide)]

theorem encode_arr (xs : List Json) (ho : opens k ps ad = false) :
    encode text (.mapping k ps is ad) (.arr xs)
      = .arr (xs.map ((is.map (encode text)).getD id)) := by
  unfold encode
  rw [Schema.fold_mapping, if_neg (by rw [ho]; decide)]

theorem encode_flat {s : Schema} {v : Json} (hobj : v.fields? = none)
    (harr : v.items? = none) : encode text s v = v := by
  cases s with
  | other w => rfl
  | mapping k ps is ad =>
    unfold encode
    rw [Schema.fold_mapping]
    cases v with
    | obj fs => cases hobj
    | arr xs => cases harr
    | _ => simp [encodeOpen]

theorem nullFilled_flat {s : Schema} {v : Json} (hobj : v.fields? = none)
    (harr : v.items? = none) : nullFilled s v = v := by
  cases s with
  | other w => rfl
  | mapping k ps is ad =>
    unfold nullFilled
    rw [Schema.fold_mapping]
    cases v with
    | obj fs => cases hobj
    | arr xs => cases harr
    | _ => simp

theorem nullFilled_open (v : Json) (ho : opens k ps ad = true) :
    nullFilled (.mapping k ps is ad) v = v := by
  unfold nullFilled
  rw [Schema.fold_mapping, if_pos ho]

theorem nullFilled_obj (ho : opens k ps ad = false) :
    nullFilled (.mapping k ps is ad) (.obj fs)
      = .obj ((fs.map fun f =>
            (f.1, (((ps.declared.lookup f.1).map nullFilled).getD id) f.2))
          ++ ((omitted ps fs).filter fun e => nullable e.2).map
            fun e => (e.1, .null)) := by
  unfold nullFilled
  rw [Schema.fold_mapping, if_neg (by rw [ho]; decide)]

theorem nullFilled_arr (xs : List Json) (ho : opens k ps ad = false) :
    nullFilled (.mapping k ps is ad) (.arr xs)
      = .arr (xs.map ((is.map nullFilled).getD id)) := by
  unfold nullFilled
  rw [Schema.fold_mapping, if_neg (by rw [ho]; decide)]

theorem plain_open (v : Json) (ho : opens k ps ad = true) :
    plain text (.mapping k ps is ad) v = decodeOpen text v := by
  unfold plain
  rw [Schema.fold_mapping, if_pos ho]

theorem plain_obj (ho : opens k ps ad = false)
    (hobject : "object" ∈ typeNames k.type) :
    plain text (.mapping k ps is ad) (.obj fs)
      = .obj (Fields.adjust (fun name x =>
          if standsForOmission k ps name x then none
          else some
            ((((ps.declared.lookup name).map (plain text)).getD id) x))
          fs) := by
  unfold plain
  rw [Schema.fold_mapping, if_neg (by rw [ho]; decide), if_pos hobject]

theorem plain_arr (xs : List Json) (ho : opens k ps ad = false)
    (hobject : "object" ∉ typeNames k.type)
    (harray : "array" ∈ typeNames k.type) :
    plain text (.mapping k ps is ad) (.arr xs)
      = .arr (xs.map ((is.map (plain text)).getD id)) := by
  unfold plain
  rw [Schema.fold_mapping, if_neg (by rw [ho]; decide), if_neg hobject,
    if_pos harray]

theorem plain_of_object {v : Json} (ho : opens k ps ad = false)
    (hobject : "object" ∈ typeNames k.type) (hv : v.fields? = none) :
    plain text (.mapping k ps is ad) v = v := by
  unfold plain
  rw [Schema.fold_mapping, if_neg (by rw [ho]; decide), if_pos hobject]
  cases v with
  | obj fs => cases hv
  | _ => rfl

theorem plain_of_array {v : Json} (ho : opens k ps ad = false)
    (hobject : "object" ∉ typeNames k.type)
    (harray : "array" ∈ typeNames k.type) (hv : v.items? = none) :
    plain text (.mapping k ps is ad) v = v := by
  unfold plain
  rw [Schema.fold_mapping, if_neg (by rw [ho]; decide), if_neg hobject,
    if_pos harray]
  cases v with
  | arr xs => cases hv
  | _ => rfl

theorem plain_of_scalar (v : Json) (ho : opens k ps ad = false)
    (hobject : "object" ∉ typeNames k.type)
    (harray : "array" ∉ typeNames k.type) :
    plain text (.mapping k ps is ad) v = v := by
  unfold plain
  rw [Schema.fold_mapping, if_neg (by rw [ho]; decide), if_neg hobject,
    if_neg harray]

theorem isNull_encode (s : Schema) (v : Json) :
    (encode text s v).isNull = v.isNull := by
  cases s with
  | other w => rfl
  | mapping k ps is ad =>
    unfold encode
    rw [Schema.fold_mapping]
    split
    · cases v <;> rfl
    · cases v <;> rfl

theorem plain_null {s : Schema} : plain text s .null = .null := by
  cases s with
  | other w => rfl
  | mapping k ps is ad =>
    unfold plain
    rw [Schema.fold_mapping]
    show (if opens k ps ad then Json.null else if _ then .null
      else if _ then .null else .null) = _
    simp

theorem plain_flat {v : Json} (ho : opens k ps ad = false)
    (hobj : v.fields? = none) (harr : v.items? = none) :
    plain text (.mapping k ps is ad) v = v := by
  by_cases hobject : "object" ∈ typeNames k.type
  · exact plain_of_object ho hobject hobj
  · by_cases harray : "array" ∈ typeNames k.type
    · exact plain_of_array ho hobject harray harr
    · exact plain_of_scalar v ho hobject harray

theorem holdsObjects_mapping (v : Json) :
    holdsObjects text (.mapping k ps is ad) v
      = if opens k ps ad then holdsObject text v
        else
          (v.fields?.all fun fs => fs.all fun f =>
            ((ps.declared.lookup f.1).map (holdsObjects text)).all
              fun h => h f.2)
          && (v.items?.all fun xs => xs.all fun x =>
            (is.map (holdsObjects text)).all fun h => h x) := by
  unfold holdsObjects
  rw [Schema.fold_mapping]

theorem holdsObjects_open (v : Json) (ho : opens k ps ad = true) :
    holdsObjects text (.mapping k ps is ad) v = holdsObject text v := by
  rw [holdsObjects_mapping, if_pos ho]

theorem holdsObjects_obj_iff (ho : opens k ps ad = false) :
    holdsObjects text (.mapping k ps is ad) (.obj fs) = true
      ↔ ∀ f ∈ fs, ∀ s, ps.declared.lookup f.1 = some s →
        holdsObjects text s f.2 = true := by
  rw [holdsObjects_mapping, ho]
  simp [Option.all_eq_true]

theorem holdsObjects_arr_iff (xs : List Json) (ho : opens k ps ad = false) :
    holdsObjects text (.mapping k ps is ad) (.arr xs) = true
      ↔ ∀ s, is = some s → ∀ x ∈ xs, holdsObjects text s x = true := by
  rw [holdsObjects_mapping, ho]
  simp only [Json.fields?_arr, Json.items?_arr, Option.all_some,
    Option.all_none, Bool.true_and, List.all_eq_true, Option.all_map,
    Option.all_eq_true, Bool.false_eq_true, if_false]
  exact ⟨fun h s hs x hx => h x hx s hs, fun h x hx s hs => h s hs x hx⟩

end Nodes

-- ======= normalisation

section Normalised

theorem jsonTypes_stripped :
    ∀ name ∈ jsonTypes, pyStrip name = name ∧ name ≠ "" := by
  decide

theorem coerceTypeItems_eq (toolName path : String) {items : List Json}
    {normalized : List String}
    (hgives : givesTypes (some (.arr items)) = true)
    (hknown : ∀ name ∈ typeNames (some (.arr items)), name ∈ jsonTypes)
    (hnodup : (normalized ++ typeNames (some (.arr items))).Nodup) :
    coerceTypeItems toolName path items normalized
      = .ok (normalized ++ typeNames (some (.arr items))) := by
  induction items generalizing normalized with
  | nil => simp [coerceTypeItems, typeNames]
  | cons item items ih =>
    cases item with
    | str name =>
      have hnames : typeNames (some (.arr (.str name :: items)))
          = name :: typeNames (some (.arr items)) := rfl
      rw [hnames] at hknown hnodup ⊢
      obtain ⟨hstrip, hblank⟩ :=
        jsonTypes_stripped name (hknown name List.mem_cons_self)
      have hfresh : name ∉ normalized := by
        intro hmem
        exact (List.nodup_append.1 hnodup).2.2 name hmem name
          List.mem_cons_self rfl
      have happend : normalized ++ name :: typeNames (some (.arr items))
          = (normalized ++ [name]) ++ typeNames (some (.arr items)) := by
        rw [List.append_assoc, List.singleton_append]
      rw [coerceTypeItems, hstrip]
      rw [if_pos ⟨hblank, hfresh⟩]
      rw [happend] at hnodup ⊢
      refine ih ?_ ?_ hnodup
      · exact hgives
      · intro other hother
        exact hknown other (List.mem_cons_of_mem _ hother)
    | _ => cases hgives

theorem coerceSchemaTypes_eq (toolName path : String)
    {type : Option Json} (h : OneType type) :
    coerceSchemaTypes toolName path type = .ok (typeNames type) := by
  have hgives := h.gives
  cases type with
  | none => cases hgives
  | some t =>
    cases t with
    | str name =>
      have hknown : name ∈ jsonTypes :=
        h.known name List.mem_cons_self
      obtain ⟨hstrip, hblank⟩ := jsonTypes_stripped name hknown
      rw [coerceSchemaTypes, hstrip]
      rw [if_pos hblank]
      rfl
    | arr items =>
      have hloop : coerceTypeItems toolName path items []
          = .ok ([] ++ typeNames (some (.arr items))) :=
        coerceTypeItems_eq toolName path hgives h.known h.nodup
      exact hloop
    | _ => cases hgives

example : (coerceSchemaTypes "run" "$"
    (some (.arr [.str "string", .str "null"]))).toOption
      = some ["string", "null"] := by decide +kernel

theorem nodeTypes_eq (toolName path : String) {k : Keywords}
    {ps : Slot (String × Schema)} {is : Option Schema}
    {ad : Additional Schema} (h : OneType k.type) :
    nodeTypes toolName path k ps is ad = .ok (typeNames k.type) := by
  unfold nodeTypes
  rw [coerceSchemaTypes_eq toolName path h]
  show (if typeNames k.type ≠ [] then _ else _) = _
  rw [if_pos h.nonempty]
  rfl

theorem typeNames_applyOptionalNullable (types : List String)
    (required : Bool) :
    typeNames (some (applyOptionalNullable types required))
      = resolvedTypes types required := by
  unfold applyOptionalNullable
  split
  · next single hsingle => rw [hsingle]; rfl
  · simp [typeNames, List.filterMap_map]

theorem hasType_null_iff {v : Json} :
    hasType "null" v = true ↔ v.isNull = true := by
  cases v with
  | null => decide
  | _ => simp [hasType, Json.isNull]

/-- The widened type admits what the type admits, and the null of an
optional property. -/
theorem typed_resolved (k k' : Keywords) (required : Bool) (v : Json)
    (types : List String) (htypes : typeNames k.type = types)
    (hsome : k.type.isNone = false)
    (hk : k'.type = some (applyOptionalNullable types required)) :
    k'.typed v = (k.typed v || (v.isNull && !required)) := by
  unfold Keywords.typed
  rw [hk, typeNames_applyOptionalNullable, htypes, hsome, Option.isNone_some,
    Bool.false_or, Bool.false_or]
  unfold resolvedTypes
  cases required with
  | true => simp
  | false =>
    by_cases hnull : "null" ∈ types
    · rw [if_neg (by simp [hnull]), Bool.not_false, Bool.and_true]
      cases hv : v.isNull with
      | false => rw [Bool.or_false]
      | true =>
        rw [Bool.or_true, List.any_eq_true]
        exact ⟨"null", hnull, hasType_null_iff.2 hv⟩
    · rw [if_pos (by simp [hnull]), List.any_append, Bool.not_false,
        Bool.and_true]
      congr 1
      simp only [List.any_cons, List.any_nil, Bool.or_false]
      exact Bool.eq_iff_iff.2 hasType_null_iff

theorem normalizeProperties_spec {toolName path : String}
    {required : List String} {entries : List (String × Schema)}
    {children : List (String × NormalizedToolSchema)}
    (h : normalizeProperties toolName required path entries = .ok children) :
    children.map Prod.fst = entries.map Prod.fst
    ∧ ∀ name, (entries.lookup name = none ∧ children.lookup name = none)
      ∨ ∃ s c path', entries.lookup name = some s
        ∧ children.lookup name = some c
        ∧ normalizeSchemaNode toolName s path'
          (decide (name ∈ required)) = .ok c := by
  induction entries generalizing children with
  | nil =>
    cases h
    exact ⟨rfl, fun name => Or.inl ⟨rfl, rfl⟩⟩
  | cons e entries ih =>
    obtain ⟨name, s⟩ := e
    rw [normalizeProperties] at h
    obtain ⟨child, hchild, h⟩ := bind_eq_ok.1 h
    obtain ⟨rest, hrest, h⟩ := bind_eq_ok.1 h
    cases h
    obtain ⟨hkeys, hlookup⟩ := ih hrest
    refine ⟨by rw [List.map_cons, List.map_cons, hkeys], ?_⟩
    intro other
    rw [List.lookup_cons, List.lookup_cons]
    by_cases hname : other = name
    · subst hname
      rw [BEq.rfl]
      exact Or.inr ⟨s, child, _, rfl, rfl, hchild⟩
    · have hne : (other == name) = false := by simpa using hname
      rw [hne]
      exact hlookup other

/-- The keywords of the strict schema at a node that is not replaced. -/
def strictKeywords (k : Keywords) (required : Bool) : Keywords :=
  { k with
    type := some (applyOptionalNullable (typeNames k.type) required)
    others := keptOthers k }

/-- Whether the plan omits the null of a node. -/
def omitsNull (k : Keywords) (required : Bool) : Bool :=
  !required && "null" ∉ typeNames k.type

/-- What a normalisation that succeeds has done: an open object is
replaced, a declared one is closed over its normalised properties, an
array has its items normalised, and anything else is copied. -/
theorem normalizeSchemaNode_cases {toolName path : String} {k : Keywords}
    {ps : Slot (String × Schema)} {is : Option Schema}
    {ad : Additional Schema} {required : Bool} {n : NormalizedToolSchema}
    (htype : OneType k.type)
    (h : normalizeSchemaNode toolName (.mapping k ps is ad) path required
      = .ok n) :
    (opens k ps ad = true
      ∧ n = ⟨openObjectSurrogateSchema k is required,
          .plan (omitsNull k required) true [] none⟩)
    ∨ (opens k ps ad = false ∧ "object" ∈ typeNames k.type
      ∧ ∃ children, normalizeProperties toolName (declaredRequired k) path
          ps.declared = .ok children
        ∧ n = ⟨.mapping { strictKeywords k required with
                required := some (children.map Prod.fst) }
              (.given (children.map fun c => (c.1, c.2.schema))) is
              .forbidden,
            .plan (omitsNull k required) false
              (children.map fun c => (c.1, c.2.restorationPlan)) none⟩)
    ∨ (opens k ps ad = false ∧ "array" ∈ typeNames k.type
      ∧ ∃ s item path', is = some s
        ∧ normalizeSchemaNode toolName s path' true = .ok item
        ∧ n = ⟨.mapping (strictKeywords k required) ps (some item.schema) ad,
            .plan (omitsNull k required) false []
              (some item.restorationPlan)⟩)
    ∨ (opens k ps ad = false ∧ "object" ∉ typeNames k.type
      ∧ "array" ∉ typeNames k.type
      ∧ n = ⟨.mapping (strictKeywords k required) ps is ad,
          .plan (omitsNull k required) false [] none⟩) := by
  rw [normalizeSchemaNode, nodeTypes_eq toolName path htype] at h
  obtain ⟨types, htypes, h⟩ := bind_eq_ok.1 h
  cases htypes
  by_cases hobject : "object" ∈ typeNames k.type
  · rw [if_pos hobject] at h
    obtain ⟨_, _, h⟩ := bind_eq_ok.1 h
    by_cases hopen : ps.declared.isEmpty ∧ !isForbidden ad
    · rw [if_pos hopen] at h
      cases h
      refine Or.inl ⟨?_, rfl⟩
      simp [opens, hobject, hopen]
    · rw [if_neg hopen] at h
      obtain ⟨children, hchildren, h⟩ := bind_eq_ok.1 h
      obtain ⟨_, _, h⟩ := bind_eq_ok.1 h
      cases h
      refine Or.inr (Or.inl ⟨?_, hobject, children, ?_, rfl⟩)
      · simpa [opens, hobject] using hopen
      · rw [← hchildren]
        cases ps with
        | _ => rfl
  · rw [if_neg hobject] at h
    have hopens : opens k ps ad = false := by simp [opens, hobject]
    by_cases harray : "array" ∈ typeNames k.type
    · rw [if_pos harray] at h
      obtain ⟨item, hitem, h⟩ := bind_eq_ok.1 h
      cases h
      refine Or.inr (Or.inr (Or.inl ⟨hopens, harray, ?_⟩))
      cases is with
      | none => cases hitem
      | some s =>
        rw [normalizeItems] at hitem
        split at hitem
        · exact ⟨s, item, _, rfl, hitem, rfl⟩
        · cases hitem
    · rw [if_neg harray] at h
      cases h
      exact Or.inr (Or.inr (Or.inr ⟨hopens, hobject, harray, rfl⟩))

end Normalised

end WeaveRuntime.ToolSchemas
