/-
JSON Schema: schemas as trees, and the values they accept.

A schema document is a mapping of keywords. The four keywords that hold
schemas are the branches of the tree, the other keywords are its data; the
keywords with a meaning of their own here are `type`, `required` and
`enum`, and what a further keyword asks of a value is a parameter
(`meaning`). A keyword of the wrong form is kept (`Slot.malformed`,
`Schema.other`), for the programs that have to reject it.

`accepts` is validity. It is computed along the schema, so a proof about
it is an induction over the schema (`Schema.induct`) with the entry lemma
`acceptsField_eq` for the fields of an object.
-/
import WeaveRuntime.Lib.Json

namespace WeaveRuntime.Lib

-- ============= schemas

/-- A keyword that should hold a mapping. -/
inductive Slot (α : Type u) where
  | absent
  | malformed
  | given (entries : List α)

/-- The entries of a mapping keyword. -/
def Slot.declared {α : Type u} : Slot α → List α
  | .given entries => entries
  | _ => []

/-- `additionalProperties`: left out, `false`, a schema, or anything
else. -/
inductive Additional (α : Type u) where
  | absent
  | forbidden
  | permitted
  | schema (s : α)

/-- The keywords that hold no schema. -/
structure Keywords where
  type : Option Json := none
  required : Option (List String) := none
  enum : Option (List Json) := none
  description : Option String := none
  others : List (String × Json) := []

/-- A JSON Schema document, or another value where one is expected. -/
inductive Schema where
  | mapping (keywords : Keywords) (properties : Slot (String × Schema))
      (items : Option Schema) (additional : Additional Schema)
  | other (value : Json)

namespace Schema

def keywords : Schema → Keywords
  | mapping k _ _ _ => k
  | other _ => {}

def properties : Schema → List (String × Schema)
  | mapping _ ps _ _ => ps.declared
  | other _ => []

mutual

/-- No two properties of a schema share a name. -/
def Proper : Schema → Prop
  | mapping _ ps is ad =>
    (match ps with
      | .given entries =>
        (entries.map Prod.fst).Nodup ∧ ProperEntries entries
      | _ => True)
    ∧ (match is with
      | some s => Proper s
      | none => True)
    ∧ (match ad with
      | .schema s => Proper s
      | _ => True)
  | other _ => True

def ProperEntries : List (String × Schema) → Prop
  | [] => True
  | (_, s) :: ps => Proper s ∧ ProperEntries ps

end

theorem properEntries_iff {ps : List (String × Schema)} :
    ProperEntries ps ↔ ∀ e ∈ ps, Proper e.2 := by
  induction ps with
  | nil => simp [ProperEntries]
  | cons e ps ih => simp [ProperEntries, ih]

theorem Proper.declared {k : Keywords} {ps : Slot (String × Schema)}
    {is : Option Schema} {ad : Additional Schema}
    (h : (mapping k ps is ad).Proper) :
    (ps.declared.map Prod.fst).Nodup ∧ ∀ e ∈ ps.declared, e.2.Proper := by
  rw [Proper.eq_def] at h
  cases ps with
  | given entries => exact ⟨h.1.1, properEntries_iff.1 h.1.2⟩
  | _ => simp [Slot.declared]

theorem Proper.items {k : Keywords} {ps : Slot (String × Schema)}
    {s : Schema} {ad : Additional Schema}
    (h : (mapping k ps (some s) ad).Proper) : s.Proper := by
  rw [Proper.eq_def] at h
  exact h.2.1

end Schema

-- =============== types

def typeNames : Option Json → List String
  | some (.str name) => [name]
  | some (.arr items) => items.filterMap fun x =>
    match x with
    | .str name => some name
    | _ => none
  | _ => []

/-- Whether a value has the type of a name. -/
def hasType : String → Json → Bool
  | "null", .null => true
  | "boolean", .bool _ => true
  | "number", .num _ => true
  | "integer", .num q => q.den == 1
  | "string", .str _ => true
  | "array", .arr _ => true
  | "object", .obj _ => true
  | _, _ => false

def jsonTypes : List String :=
  ["null", "boolean", "number", "integer", "string", "array", "object"]

/-- The keywords that only define things and ask nothing of a value. -/
def definitions : List String := ["$schema", "definitions", "$defs"]

-- ============ validity

section Validity

variable (meaning : String → Json → Json → Bool)

/-- What the keywords other than `type` ask of any value. -/
def Keywords.keeps (k : Keywords) (v : Json) : Bool :=
  (k.enum.all fun values => values.any fun e => e.same v)
    && k.others.all fun o =>
      decide (o.1 ∈ definitions) || meaning o.1 o.2 v

def Keywords.typed (k : Keywords) (v : Json) : Bool :=
  k.type.isNone || (typeNames k.type).any fun name => hasType name v

def Keywords.complete (k : Keywords) (fs : List (String × Json)) : Bool :=
  k.required.all fun names =>
    names.all fun name => (fs.lookup name).isSome

namespace Schema

mutual

/-- Whether the schema accepts the value. -/
def accepts : Schema → Json → Bool
  | mapping k ps is ad, v =>
    k.typed v && k.keeps meaning v
      && (v.fields?.all fun fs =>
        k.complete fs && fs.all fun f =>
          match (match ps with
            | .given entries => acceptors entries
            | _ => []).lookup f.1 with
          | some accept => accept f.2
          | none =>
            match ad with
            | .forbidden => false
            | .schema s => s.accepts f.2
            | _ => true)
      && (v.items?.all fun xs =>
        match is with
        | some s => xs.all fun x => s.accepts x
        | none => true)
  | other _, _ => false

/-- The properties, each with the values it accepts. -/
def acceptors : List (String × Schema) → List (String × (Json → Bool))
  | [] => []
  | (name, s) :: ps => (name, fun v => s.accepts v) :: acceptors ps

end

theorem lookup_acceptors (ps : List (String × Schema)) (name : String) :
    (acceptors meaning ps).lookup name
      = (ps.lookup name).map fun s v => s.accepts meaning v := by
  induction ps with
  | nil => rfl
  | cons e ps ih =>
    rw [acceptors, List.lookup_cons, List.lookup_cons, ih]
    cases name == e.1 with
    | true => rfl
    | false => rfl

/-- What `additionalProperties` asks of a value. -/
def acceptsAdditional : Additional Schema → Json → Bool
  | .forbidden, _ => false
  | .schema s, v => s.accepts meaning v
  | _, _ => true

/-- What an object schema asks of the value of one field. -/
def acceptsField (ps : List (String × Schema)) (ad : Additional Schema)
    (name : String) (v : Json) : Bool :=
  match ps.lookup name with
  | some s => s.accepts meaning v
  | none => acceptsAdditional meaning ad v

/-- What an array schema asks of an item. -/
def acceptsItem (is : Option Schema) (v : Json) : Bool :=
  is.all fun s => s.accepts meaning v

theorem accepts_mapping (k : Keywords) (ps : Slot (String × Schema))
    (is : Option Schema) (ad : Additional Schema) (v : Json) :
    (mapping k ps is ad).accepts meaning v
      = (k.typed v && k.keeps meaning v
        && (v.fields?.all fun fs => k.complete fs && fs.all fun f =>
          acceptsField meaning ps.declared ad f.1 f.2)
        && (v.items?.all fun xs => xs.all (acceptsItem meaning is))) := by
  have hfield : ∀ name x,
      (match (match ps with
          | .given entries => acceptors meaning entries
          | _ => []).lookup name with
        | some accept => accept x
        | none =>
          match ad with
          | .forbidden => false
          | .schema s => s.accepts meaning x
          | _ => true)
        = acceptsField meaning ps.declared ad name x := by
    intro name x
    unfold acceptsField
    cases ps with
    | given entries =>
      simp only [lookup_acceptors, Slot.declared]
      cases entries.lookup name with
      | some s => rfl
      | none => cases ad <;> rfl
    | _ => cases ad <;> rfl
  rw [accepts.eq_def]
  simp only [hfield]
  congr 2
  funext xs
  cases is with
  | none => simp [acceptsItem]
  | some s => rfl

theorem accepts_mapping_iff {k : Keywords} {ps : Slot (String × Schema)}
    {is : Option Schema} {ad : Additional Schema} {v : Json} :
    (mapping k ps is ad).accepts meaning v = true
      ↔ k.typed v = true ∧ k.keeps meaning v = true
        ∧ (∀ fs, v = .obj fs → k.complete fs = true ∧ ∀ f ∈ fs,
          acceptsField meaning ps.declared ad f.1 f.2 = true)
        ∧ ∀ xs, v = .arr xs → ∀ s, is = some s → ∀ x ∈ xs,
          s.accepts meaning x = true := by
  rw [accepts_mapping]
  simp only [Bool.and_eq_true, Option.all_eq_true,
    Json.fields?_eq_some_iff, Json.items?_eq_some_iff, List.all_eq_true,
    acceptsItem, and_assoc]
  constructor
  · intro ⟨htyped, hkeeps, hfields, hitems⟩
    exact ⟨htyped, hkeeps, hfields,
      fun xs hxs s hs x hx => hitems xs hxs x hx s hs⟩
  · intro ⟨htyped, hkeeps, hfields, hitems⟩
    exact ⟨htyped, hkeeps, hfields,
      fun xs hxs x hx s hs => hitems xs hxs s hs x hx⟩

theorem accepts_flat {k : Keywords} {ps : Slot (String × Schema)}
    {is : Option Schema} {ad : Additional Schema} {v : Json}
    (hobj : v.fields? = none) (harr : v.items? = none) :
    (mapping k ps is ad).accepts meaning v
      = (k.typed v && k.keeps meaning v) := by
  rw [accepts_mapping, hobj, harr, Option.all_none, Option.all_none,
    Bool.and_true, Bool.and_true]

end Schema

end Validity

-- =========== recursion

namespace Schema

/-- What a recursion over schemas computes at a mapping: from its parts,
the results of the properties by name and the result of the items. -/
abbrev Step (β : Type u) :=
  Keywords → Slot (String × Schema) → Additional Schema →
    (String → Option β) → Option β → β

section Fold

variable {β : Type u} (step : Step β) (leaf : β)

mutual

/-- Recursion along properties and items. -/
def fold : Schema → β
  | mapping k ps is ad =>
    step k ps ad
      (fun name => (match ps with
        | .given entries => foldEntries entries
        | _ => []).lookup name)
      (match is with
        | some s => some s.fold
        | none => none)
  | other _ => leaf

def foldEntries : List (String × Schema) → List (String × β)
  | [] => []
  | (name, s) :: ps => (name, s.fold) :: foldEntries ps

end

theorem foldEntries_eq (ps : List (String × Schema)) :
    foldEntries step leaf ps = ps.map fun e => (e.1, fold step leaf e.2) := by
  induction ps with
  | nil => rfl
  | cons e ps ih => rw [foldEntries, ih, List.map_cons]

theorem fold_mapping (k : Keywords) (ps : Slot (String × Schema))
    (is : Option Schema) (ad : Additional Schema) :
    (mapping k ps is ad).fold step leaf
      = step k ps ad
        (fun name => (ps.declared.lookup name).map (fold step leaf))
        (is.map (fold step leaf)) := by
  rw [fold.eq_def]
  cases ps with
  | given entries =>
    simp only [foldEntries_eq, Slot.declared, Fields.lookup_map]
    cases is <;> rfl
  | _ => cases is <;> rfl

@[simp] theorem fold_other (v : Json) : (other v).fold step leaf = leaf := rfl

end Fold

end Schema

-- =========== induction

namespace Schema

/-- To prove something of every schema, prove it of a mapping whose
branches have it. -/
theorem induct {P : Schema → Prop} (hother : ∀ v, P (other v))
    (hmapping : ∀ k ps is ad, (∀ e ∈ Slot.declared ps, P e.2)
      → (∀ s, is = some s → P s) → (∀ s, ad = .schema s → P s)
      → P (mapping k ps is ad)) :
    ∀ s, P s
  | other v => hother v
  | mapping k ps is ad => by
    refine hmapping k ps is ad ?_ ?_ ?_
    · intro e he
      exact induct hother hmapping e.2
    · intro s hs
      exact induct hother hmapping s
    · intro s hs
      exact induct hother hmapping s
termination_by s => s
decreasing_by
  · cases ps with
    | given entries =>
      have hentry := List.sizeOf_lt_of_mem he
      simp only [mapping.sizeOf_spec, Slot.given.sizeOf_spec]
      have hsnd : sizeOf e.2 < sizeOf e := by
        obtain ⟨name, t⟩ := e
        simp only [Prod.mk.sizeOf_spec]
        omega
      simp only [Slot.declared] at hentry
      omega
    | _ => cases he
  · subst hs
    simp only [mapping.sizeOf_spec, Option.some.sizeOf_spec]
    omega
  · subst hs
    simp only [mapping.sizeOf_spec, Additional.schema.sizeOf_spec]
    omega

end Schema

end WeaveRuntime.Lib
