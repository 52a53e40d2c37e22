/-
The round trip of tool arguments.

Each half is an induction over the schema along the four cases of the
normalisation (`normalizeSchemaNode_cases`). Types, required names and
closed objects always agree between the two schemas; what can disagree is
what a node copies unchanged while its values change, and that is what
`Carries` and `Returns` ask.
-/
import WeaveRuntime.ToolSchemas.Encoding

namespace WeaveRuntime.ToolSchemas

open Lib
open Python

variable {text : JsonText} {meaning : String → Json → Json → Bool}
  {toolName : String}

-- ============== shapes

section Shapes

variable {k : Keywords} {v : Json}

theorem hasType_obj {name : String} {fs : List (String × Json)}
    (h : hasType name (.obj fs) = true) : name = "object" := by
  unfold hasType at h
  split at h <;> simp_all

theorem hasType_arr {name : String} {xs : List Json}
    (h : hasType name (.arr xs) = true) : name = "array" := by
  unfold hasType at h
  split at h <;> simp_all

variable {type : Option Json}

theorem OneType.isSome (h : OneType type) : type.isNone = false := by
  cases type with
  | none => exact absurd h.gives (by decide)
  | some t => rfl

theorem typed_iff (htype : OneType k.type) :
    k.typed v = true ↔ ∃ name ∈ typeNames k.type, hasType name v = true := by
  unfold Keywords.typed
  rw [htype.isSome, Bool.false_or, List.any_eq_true]

theorem typed_obj {fs : List (String × Json)} (htype : OneType k.type)
    (h : k.typed (.obj fs) = true) : "object" ∈ typeNames k.type := by
  obtain ⟨name, hname, hof⟩ := (typed_iff htype).1 h
  rw [hasType_obj hof] at hname
  exact hname

theorem typed_arr {xs : List Json} (htype : OneType k.type)
    (h : k.typed (.arr xs) = true) : "array" ∈ typeNames k.type := by
  obtain ⟨name, hname, hof⟩ := (typed_iff htype).1 h
  rw [hasType_arr hof] at hname
  exact hname

theorem OneType.not_both (h : OneType type) :
    ¬ ("object" ∈ typeNames type ∧ "array" ∈ typeNames type) := by
  intro ⟨hobject, harray⟩
  have heq := h.single _ hobject _ harray (by decide) (by decide)
  exact absurd heq (by decide)

theorem fields?_of_not_object (htype : OneType k.type)
    (hobject : "object" ∉ typeNames k.type) (h : k.typed v = true) :
    v.fields? = none := by
  cases hv : v.fields? with
  | none => rfl
  | some fs =>
    rw [Json.fields?_eq_some_iff] at hv
    subst hv
    exact absurd (typed_obj htype h) hobject

theorem items?_of_not_array (htype : OneType k.type)
    (harray : "array" ∉ typeNames k.type) (h : k.typed v = true) :
    v.items? = none := by
  cases hv : v.items? with
  | none => rfl
  | some xs =>
    rw [Json.items?_eq_some_iff] at hv
    subst hv
    exact absurd (typed_arr htype h) harray

theorem obj_or_null (htype : OneType k.type)
    (hobject : "object" ∈ typeNames k.type) (h : k.typed v = true) :
    (∃ fs, v = .obj fs) ∨ v = .null := by
  obtain ⟨name, hname, hof⟩ := (typed_iff htype).1 h
  by_cases hnull : name = "null"
  · subst hnull
    rw [hasType_null_iff, Json.isNull_iff] at hof
    exact Or.inr hof
  · have heq := htype.single _ hname _ hobject hnull (by decide)
    subst heq
    cases v with
    | obj fs => exact Or.inl ⟨fs, rfl⟩
    | null => exact Or.inr rfl
    | _ => cases hof

theorem arr_or_null (htype : OneType k.type)
    (harray : "array" ∈ typeNames k.type) (h : k.typed v = true) :
    (∃ xs, v = .arr xs) ∨ v = .null := by
  obtain ⟨name, hname, hof⟩ := (typed_iff htype).1 h
  by_cases hnull : name = "null"
  · subst hnull
    rw [hasType_null_iff, Json.isNull_iff] at hof
    exact Or.inr hof
  · have heq := htype.single _ hname _ harray hnull (by decide)
    subst heq
    cases v with
    | arr xs => exact Or.inl ⟨xs, rfl⟩
    | null => exact Or.inr rfl
    | _ => cases hof

theorem not_object_of_array (htype : OneType type)
    (harray : "array" ∈ typeNames type) : "object" ∉ typeNames type :=
  fun hobject => htype.not_both ⟨hobject, harray⟩

theorem mem_of_opens {ps : Slot (String × Schema)} {ad : Additional Schema}
    (h : opens k ps ad = true) : "object" ∈ typeNames k.type := by
  simp only [opens, Bool.and_eq_true, decide_eq_true_eq] at h
  exact h.1.1

end Shapes

-- ====== strict schemas

section Strict

variable {k : Keywords} {ps : Slot (String × Schema)} {is : Option Schema}
  {ad : Additional Schema} {required : Bool} {v : Json}

theorem keeps_congr (k k' : Keywords) (henum : k'.enum = k.enum)
    (hothers : k'.others = keptOthers k) (v : Json) :
    k'.keeps meaning v = k.keeps meaning v := by
  unfold Keywords.keeps
  rw [henum, hothers]
  congr 1
  unfold keptOthers
  rw [List.all_filter]
  apply List.all_congr
  · rfl
  · intro o
    have hlists : droppedKeywords = definitions := rfl
    rw [hlists]
    by_cases ho : o.1 ∈ definitions
    · simp [ho]
    · simp [ho]

theorem strictKeywords_keeps (v : Json) :
    (strictKeywords k required).keeps meaning v = k.keeps meaning v :=
  keeps_congr k (strictKeywords k required) rfl rfl v

theorem strictKeywords_typed (htype : OneType k.type) (v : Json) :
    (strictKeywords k required).typed v
      = (k.typed v || (v.isNull && !required)) :=
  typed_resolved k _ required v _ rfl htype.isSome rfl

theorem typed_string (k' : Keywords)
    (hk : k'.type = some (applyOptionalNullable ["string"] required)) :
    k'.typed v = true
      ↔ (∃ t, v = .str t) ∨ (v.isNull = true ∧ required = false) := by
  have hbase : ({ type := some (.str "string") } : Keywords).typed v = true
      ↔ ∃ t, v = .str t := by
    cases v with
    | _ => simp [Keywords.typed, typeNames, hasType]
  rw [typed_resolved { type := some (.str "string") } k' required v
    ["string"] rfl rfl hk, Bool.or_eq_true, Bool.and_eq_true,
    Bool.not_eq_true', hbase]

theorem surrogate_accepts_iff :
    (openObjectSurrogateSchema k is required).accepts meaning v = true
      ↔ ((∃ t, v = .str t) ∨ (v.isNull = true ∧ required = false))
        ∧ k.keeps meaning v = true := by
  unfold openObjectSurrogateSchema
  rw [Schema.accepts_mapping_iff, typed_string _ rfl,
    keeps_congr k _ (by rfl) (by rfl) v]
  constructor
  · intro ⟨htyped, hkeeps, _⟩
    exact ⟨htyped, hkeeps⟩
  · intro ⟨htyped, hkeeps⟩
    refine ⟨htyped, hkeeps, ?_, ?_⟩
    · intro fs hfs
      subst hfs
      rcases htyped with ⟨t, ht⟩ | ⟨hnull, _⟩
      · cases ht
      · cases hnull
    · intro xs hxs
      subst hxs
      rcases htyped with ⟨t, ht⟩ | ⟨hnull, _⟩
      · cases ht
      · cases hnull

example : (openObjectSurrogateSchema {} none false).accepts
    (fun _ _ _ => true) .null = true := by decide +kernel

theorem accepts_null {s : Schema} {path : String}
    {n : NormalizedToolSchema} (hone : OneTyped s)
    (h : normalizeSchemaNode toolName s path false = .ok n) :
    n.schema.accepts meaning .null = s.keywords.keeps meaning .null := by
  obtain @⟨k, ps, is, ad, htype, -, -⟩ := hone
  have hflat : ∀ ps' is' ad',
      (Schema.mapping (strictKeywords k false) ps' is' ad').accepts meaning
        .null = k.keeps meaning .null := by
    intro ps' is' ad'
    rw [Schema.accepts_mapping, strictKeywords_keeps,
      strictKeywords_typed htype]
    simp [Json.isNull]
  obtain ⟨-, rfl⟩ | ⟨-, -, children, -, rfl⟩ | ⟨-, -, item, t, path', -, -, rfl⟩
      | ⟨-, -, -, rfl⟩ := normalizeSchemaNode_cases htype h
  · rw [Bool.eq_iff_iff, surrogate_accepts_iff]
    simp [Json.isNull, Schema.keywords]
  · have hclosed := hflat (.given (children.map fun c => (c.1, c.2.schema)))
      is .forbidden
    rw [Schema.accepts_mapping] at hclosed ⊢
    exact hclosed
  · exact hflat _ _ _
  · exact hflat _ _ _

/-- The strict schema of a declared object: exactly its properties, each
by its own strict schema. -/
theorem closed_accepts_iff {children : List (String × NormalizedToolSchema)}
    {gs : List (String × Json)} (htype : OneType k.type)
    (hobject : "object" ∈ typeNames k.type) :
    (Schema.mapping { strictKeywords k required with
          required := some (children.map Prod.fst) }
        (.given (children.map fun c => (c.1, c.2.schema))) is
        .forbidden).accepts meaning (.obj gs) = true
      ↔ k.keeps meaning (.obj gs) = true
        ∧ (∀ name ∈ children.map Prod.fst, (gs.lookup name).isSome = true)
        ∧ ∀ g ∈ gs, ∃ c, children.lookup g.1 = some c
          ∧ c.schema.accepts meaning g.2 = true := by
  have htyped : (strictKeywords k required).typed (.obj gs) = true := by
    rw [strictKeywords_typed htype, Bool.or_eq_true, typed_iff htype]
    exact Or.inl ⟨_, hobject, rfl⟩
  have hfield : ∀ g : String × Json,
      Schema.acceptsField meaning
          (children.map fun c => (c.1, c.2.schema)) .forbidden g.1 g.2 = true
        ↔ ∃ c, children.lookup g.1 = some c
          ∧ c.schema.accepts meaning g.2 = true := by
    intro g
    unfold Schema.acceptsField
    rw [Fields.lookup_map fun c : NormalizedToolSchema => c.schema]
    cases children.lookup g.1 with
    | none => simp [Schema.acceptsAdditional]
    | some c => simp
  have hkeeps : (strictKeywords k required).keeps meaning (.obj gs)
      = k.keeps meaning (.obj gs) := strictKeywords_keeps (.obj gs)
  rw [Schema.accepts_mapping_iff]
  constructor
  · intro ⟨_, hkept, hfields, _⟩
    obtain ⟨hcomplete, hall⟩ := hfields gs rfl
    refine ⟨hkeeps ▸ hkept, ?_, fun g hg => (hfield g).1 (hall g hg)⟩
    simpa [Keywords.complete] using hcomplete
  · intro ⟨hkept, hcomplete, hall⟩
    refine ⟨htyped, hkeeps.symm ▸ hkept, ?_, ?_⟩
    · intro fs hfs
      cases hfs
      refine ⟨?_, fun g hg => (hfield g).2 (hall g hg)⟩
      simpa [Keywords.complete] using hcomplete
    · intro xs hxs
      cases hxs

end Strict

-- ========= the way out

variable {fs : List (String × Json)} {k : Keywords} {name : String}
  {ps : Slot (String × Schema)} {s : Schema}

theorem accepts_of_lookup {ps : List (String × Schema)}
    {ad : Additional Schema} {x : Json} (hs : ps.lookup name = some s)
    (h : Schema.acceptsField meaning ps ad name x = true) :
    s.accepts meaning x = true := by
  unfold Schema.acceptsField at h
  rw [hs] at h
  exact h

theorem lookup_of_required (hname : name ∈ declaredRequired k)
    (h : k.complete fs = true) : (fs.lookup name).isSome = true := by
  unfold declaredRequired at hname
  have hmem := (List.mem_filter.1 hname).1
  unfold Keywords.complete at h
  cases hk : k.required with
  | none =>
    rw [hk] at hmem
    cases hmem
  | some names =>
    rw [hk, Option.all_some, List.all_eq_true] at h
    rw [hk] at hmem
    exact h name hmem

theorem of_mem_omitted {e : String × Schema}
    (hnodup : (ps.declared.map Prod.fst).Nodup)
    (hcomplete : k.complete fs = true) (he : e ∈ omitted ps fs) :
    ps.declared.lookup e.1 = some e.2 ∧ fs.lookup e.1 = none
      ∧ e.1 ∉ declaredRequired k := by
  obtain ⟨hmem, hnone⟩ := List.mem_filter.1 he
  rw [Option.isNone_iff_eq_none] at hnone
  refine ⟨(Fields.lookup_eq_some_iff hnodup).2 hmem, hnone, ?_⟩
  intro hrequired
  have hsome := lookup_of_required hrequired hcomplete
  rw [hnone] at hsome
  cases hsome

theorem lookup_encoded {g : String × Json → Json}
    (h : name ∈ ps.declared.map Prod.fst) :
    (((fs.map fun f => (f.1, g f))
      ++ (omitted ps fs).map fun e => (e.1, Json.null)).lookup name).isSome
      = true := by
  rw [Fields.lookup_isSome_iff, List.map_append, List.mem_append,
    List.map_map, List.map_map]
  cases hlook : fs.lookup name with
  | some x =>
    have hmem := Fields.mem_of_lookup hlook
    exact Or.inl (List.mem_map.2 ⟨_, hmem, rfl⟩)
  | none =>
    obtain ⟨e, he, rfl⟩ := List.mem_map.1 h
    have hom : e ∈ omitted ps fs :=
      List.mem_filter.2 ⟨he, by rw [hlook]; rfl⟩
    exact Or.inr (List.mem_map.2 ⟨e, hom, rfl⟩)

variable (text) in
/-- The strict schema accepts the encoding of a valid value exactly where
the copied keywords do. -/
theorem encode_accepts_iff (s : Schema) :
    ∀ {path : String} {required : Bool} {n : NormalizedToolSchema} {v : Json},
      normalizeSchemaNode toolName s path required = .ok n → OneTyped s →
      s.Proper → s.accepts meaning v = true → declaredOnly s v = true →
      (n.schema.accepts meaning (encode text s v) = true
        ↔ Carries text meaning s required v) := by
  induction s using Schema.induct with
  | hother w =>
    intro path required n v _ _ _ haccepts _
    cases haccepts
  | hmapping k ps is ad ihps ihis _ =>
    intro path required n v hn hone hproper haccepts hdeclared
    obtain ⟨htype, honeps, honeis⟩ := hone
    obtain ⟨htyped, hkeeps, hfields, hitems⟩ :=
      Schema.accepts_mapping_iff meaning |>.mp haccepts
    -- a value without parts is copied, and so is what asks of it
    have hflat : v.fields? = none → v.items? = none →
        opens k ps ad = false →
        Carries text meaning (.mapping k ps is ad) required v := by
      intro hobj harr hopens
      refine .node hopens ?_ ?_ ?_ ?_
      · rw [encode_flat hobj harr]
        exact hkeeps
      · intro fs hfs
        rw [hfs] at hobj
        cases hobj
      · intro fs hfs
        rw [hfs] at hobj
        cases hobj
      · intro xs hxs
        rw [hxs] at harr
        cases harr
    obtain ⟨hopens, rfl⟩ | ⟨hopens, hobject, children, hchildren, rfl⟩
        | ⟨hopens, harray, t, item, path', rfl, hitem, rfl⟩
        | ⟨hopens, hobject, harray, rfl⟩ :=
      normalizeSchemaNode_cases htype hn
    · -- an open object
      rw [encode_open v hopens, surrogate_accepts_iff]
      constructor
      · intro ⟨hstring, hkept⟩
        refine .surrogate hopens hkept ?_
        intro hnull
        rw [Json.isNull_iff] at hnull
        subst hnull
        rcases hstring with ⟨t, ht⟩ | ⟨_, hrequired⟩
        · cases ht
        · exact hrequired
      · intro hcarries
        cases hcarries with
        | node hclosed => rw [hopens] at hclosed; cases hclosed
        | surrogate _ hkept hgiven =>
          refine ⟨?_, hkept⟩
          rcases obj_or_null htype (mem_of_opens hopens) htyped
            with ⟨fs, rfl⟩ | rfl
          · exact Or.inl ⟨_, rfl⟩
          · exact Or.inr ⟨rfl, hgiven rfl⟩
    · -- a declared object
      rcases obj_or_null htype hobject htyped with ⟨fs, rfl⟩ | rfl
      · obtain ⟨hkeys, hlookup⟩ := normalizeProperties_spec hchildren
        obtain ⟨hnodup, hproperps⟩ := hproper.declared
        obtain ⟨hcomplete, hall⟩ := hfields fs rfl
        have hdecl := declaredOnly_obj hopens hdeclared
        -- a field that is given
        have hgiven : ∀ f ∈ fs, ∀ t, ps.declared.lookup f.1 = some t →
            ((∃ c, children.lookup f.1 = some c
              ∧ c.schema.accepts meaning (encode text t f.2) = true)
            ↔ Carries text meaning t
              (decide (f.1 ∈ declaredRequired k)) f.2) := by
          intro f hf t ht
          obtain ⟨t', ht', hdt⟩ := hdecl f hf
          rw [ht] at ht'
          cases ht'
          have hmem := Fields.mem_of_lookup ht
          rcases hlookup f.1 with ⟨hnone, _⟩ | ⟨u, c, path', hu, hc, hcn⟩
          · rw [ht] at hnone
            cases hnone
          · rw [ht] at hu
            cases hu
            have hih := ihps _ hmem hcn (honeps _ hmem)
              (hproperps _ hmem) (accepts_of_lookup ht (hall f hf)) hdt
            constructor
            · intro ⟨c', hc', haccept⟩
              rw [hc] at hc'
              cases hc'
              exact hih.1 haccept
            · intro hcarries
              exact ⟨c, hc, hih.2 hcarries⟩
        -- a property that is left out
        have hleft : ∀ e ∈ omitted ps fs,
            ((∃ c, children.lookup e.1 = some c
              ∧ c.schema.accepts meaning .null = true)
            ↔ e.2.keywords.keeps meaning .null = true) := by
          intro e he
          obtain ⟨hlook, -, hrequired⟩ :=
            of_mem_omitted hnodup hcomplete he
          have hmem := Fields.mem_of_lookup hlook
          rcases hlookup e.1 with ⟨hnone, _⟩ | ⟨u, c, path', hu, hc, hcn⟩
          · rw [hlook] at hnone
            cases hnone
          · rw [hlook] at hu
            cases hu
            rw [decide_eq_false hrequired] at hcn
            have hnull : c.schema.accepts meaning .null = _ :=
              accepts_null (honeps _ hmem) hcn
            constructor
            · intro ⟨c', hc', haccept⟩
              rw [hc] at hc'
              cases hc'
              rw [← hnull]
              exact haccept
            · intro hkept
              exact ⟨c, hc, hnull.trans hkept⟩
        rw [encode_obj fs hopens, closed_accepts_iff htype hobject]
        constructor
        · intro ⟨hkept, _, hgs⟩
          refine .node hopens ?_ ?_ ?_ ?_
          · rw [encode_obj fs hopens]
            exact hkept
          · intro fs' hfs f hf t ht
            cases hfs
            have hg := hgs _ (List.mem_append_left _
              (List.mem_map.2 ⟨f, hf, rfl⟩))
            rw [ht] at hg
            exact (hgiven f hf t ht).1 hg
          · intro fs' hfs e he
            cases hfs
            have hg := hgs _ (List.mem_append_right _
              (List.mem_map.2 ⟨e, he, rfl⟩))
            exact (hleft e he).1 hg
          · intro xs hxs
            cases hxs
        · intro hcarries
          cases hcarries with
          | surrogate hopen => rw [hopens] at hopen; cases hopen
          | node _ hkept hfs hom _ =>
            rw [encode_obj fs hopens] at hkept
            refine ⟨hkept, ?_, ?_⟩
            · intro name hname
              rw [hkeys] at hname
              exact lookup_encoded hname
            · intro g hg
              rcases List.mem_append.1 hg with hg | hg
              · obtain ⟨f, hf, rfl⟩ := List.mem_map.1 hg
                obtain ⟨t, ht, _⟩ := hdecl f hf
                have hcar := hfs fs rfl f hf t ht
                rw [ht]
                exact (hgiven f hf t ht).2 hcar
              · obtain ⟨e, he, rfl⟩ := List.mem_map.1 hg
                exact (hleft e he).2 (hom fs rfl e he)
      · rw [encode_flat rfl rfl, Schema.accepts_flat meaning rfl rfl]
        refine ⟨fun _ => hflat rfl rfl hopens, fun _ => ?_⟩
        show ((strictKeywords k required).typed .null
          && (strictKeywords k required).keeps meaning .null) = true
        rw [strictKeywords_keeps, strictKeywords_typed htype, htyped,
          hkeeps]
        rfl
    · -- an array
      rcases arr_or_null htype harray htyped with ⟨xs, rfl⟩ | rfl
      · have hitems' := hitems xs rfl t rfl
        have hdecl := declaredOnly_arr hopens hdeclared
        have hih : ∀ x ∈ xs,
            (item.schema.accepts meaning (encode text t x) = true
              ↔ Carries text meaning t true x) := by
          intro x hx
          exact ihis t rfl hitem (honeis t rfl) hproper.items
            (hitems' x hx) (hdecl x hx)
        have hstrict : (strictKeywords k required).typed
            (encode text (.mapping k ps (some t) ad) (.arr xs)) = true := by
          rw [encode_arr xs hopens, strictKeywords_typed htype,
            Bool.or_eq_true, typed_iff htype]
          exact Or.inl ⟨_, harray, rfl⟩
        constructor
        · intro haccept
          obtain ⟨_, hkept, _, hxs⟩ :=
            (Schema.accepts_mapping_iff meaning).1 haccept
          rw [strictKeywords_keeps] at hkept
          refine .node hopens hkept ?_ ?_ ?_
          · intro fs hfs
            cases hfs
          · intro fs hfs
            cases hfs
          · intro xs' hxs' u hu x hx
            cases hxs'
            cases hu
            have hx' := hxs _ (encode_arr xs hopens) _ rfl _
              (List.mem_map.2 ⟨x, hx, rfl⟩)
            exact (hih x hx).1 hx'
        · intro hcarries
          cases hcarries with
          | surrogate hopen => rw [hopens] at hopen; cases hopen
          | node _ hkept _ _ hxs =>
            rw [Schema.accepts_mapping_iff, strictKeywords_keeps]
            refine ⟨hstrict, hkept, ?_, ?_⟩
            · intro fs hfs
              rw [encode_arr xs hopens] at hfs
              cases hfs
            · intro ys hys u hu y hy
              rw [encode_arr xs hopens] at hys
              cases hys
              cases hu
              obtain ⟨x, hx, rfl⟩ := List.mem_map.1 hy
              exact (hih x hx).2 (hxs xs rfl t rfl x hx)
      · rw [encode_flat rfl rfl, Schema.accepts_flat meaning rfl rfl,
          strictKeywords_keeps, strictKeywords_typed htype, htyped, hkeeps]
        exact ⟨fun _ => hflat rfl rfl hopens, fun _ => rfl⟩
    · -- anything else
      have hobj := fields?_of_not_object htype hobject htyped
      have harr := items?_of_not_array htype harray htyped
      rw [encode_flat hobj harr, Schema.accepts_flat meaning hobj harr,
        strictKeywords_keeps, strictKeywords_typed htype, htyped, hkeeps]
      exact ⟨fun _ => hflat hobj harr hopens, fun _ => rfl⟩

-- An array keeps its items, whatever the codec.
example : (Schema.mapping { type := some (.str "array") } .absent
    (some (.mapping { type := some (.str "string") } .absent none .absent))
    .absent).accepts (fun _ _ _ => true) (.arr [.str "a"]) = true := by
  decide +kernel

-- ======== the way back

theorem nullable_of_accepts (hone : OneTyped s)
    (h : s.accepts meaning .null = true) : nullable s = true := by
  obtain @⟨k, ps, is, ad, htype, -, -⟩ := hone
  obtain ⟨htyped, -⟩ := (Schema.accepts_mapping_iff meaning).1 h
  obtain ⟨name, hname, hof⟩ := (typed_iff htype).1 htyped
  have hnull : name = "null" := by
    unfold hasType at hof
    split at hof <;> simp_all
  rw [hnull] at hname
  unfold nullable
  exact decide_eq_true hname

theorem decodeOpen_encodeOpen (h : (Json.obj fs).Proper) :
    decodeOpen text (encodeOpen text (.obj fs)) = .obj fs := by
  show (text.loads (text.dumps (.obj fs))).toOption.getD _ = _
  rw [text.loads_dumps _ h]
  rfl

theorem standsForOmission_null (h : ps.declared.lookup name = some s) :
    standsForOmission k ps name .null
      = (!decide (name ∈ declaredRequired k) && !nullable s) := by
  simp [standsForOmission, h, Json.isNull]

/-- The nulls that stand for an omission are those the plan of the
property omits. -/
theorem standsForOmission_eq {v : Json}
    (h : ps.declared.lookup name = some s) :
    standsForOmission k ps name v
      = (v.isNull
        && omitsNull s.keywords (decide (name ∈ declaredRequired k))) := by
  simp [standsForOmission, h, omitsNull, nullable, Bool.and_assoc]

theorem standsForOmission_of_not_null {v : Json} (h : v.isNull = false) :
    standsForOmission k ps name v = false := by
  simp [standsForOmission, h]

variable (text) in
/-- What is read back from the encoding of a valid value is the value, up
to the nulls of omitted properties whose type admits null. -/
theorem plain_encode (s : Schema) :
    ∀ {v : Json}, OneTyped s → s.Proper → v.Proper →
      s.accepts meaning v = true → declaredOnly s v = true →
      plain text s (encode text s v) = nullFilled s v := by
  induction s using Schema.induct with
  | hother w =>
    intro v _ _ _ haccepts _
    cases haccepts
  | hmapping k ps is ad ihps ihis _ =>
    intro v hone hproper hv haccepts hdeclared
    obtain ⟨htype, honeps, honeis⟩ := hone
    obtain ⟨htyped, hkeeps, hfields, hitems⟩ :=
      (Schema.accepts_mapping_iff meaning).1 haccepts
    cases hopens : opens k ps ad with
    | true =>
      rw [encode_open v hopens, plain_open _ hopens,
        nullFilled_open v hopens]
      rcases obj_or_null htype (mem_of_opens hopens) htyped
        with ⟨fs, rfl⟩ | rfl
      · exact decodeOpen_encodeOpen hv
      · rfl
    | false =>
      have hflat : v.fields? = none → v.items? = none →
          plain text (.mapping k ps is ad)
            (encode text (.mapping k ps is ad) v)
          = nullFilled (.mapping k ps is ad) v := by
        intro hobj harr
        rw [encode_flat hobj harr, plain_flat hopens hobj harr,
          nullFilled_flat hobj harr]
      cases v with
      | arr xs =>
        have harray := typed_arr htype htyped
        have hobject := not_object_of_array htype harray
        rw [encode_arr xs hopens, plain_arr _ hopens hobject harray,
          nullFilled_arr xs hopens, List.map_map]
        congr 1
        apply List.map_congr_left
        intro x hx
        cases is with
        | none => rfl
        | some t =>
          have hproperxs := Json.properItems_iff.1 hv
          exact ihis t rfl (honeis t rfl) hproper.items
            (hproperxs x hx) (hitems xs rfl t rfl x hx)
            (declaredOnly_arr hopens hdeclared x hx)
      | obj fs =>
        obtain ⟨hnodup, hproperps⟩ := hproper.declared
        obtain ⟨hcomplete, hall⟩ := hfields fs rfl
        have hproperfs := Json.properFields_iff.1 hv.2
        have hdecl := declaredOnly_obj hopens hdeclared
        have hobject := typed_obj htype htyped
        rw [encode_obj fs hopens, plain_obj _ hopens hobject,
          nullFilled_obj fs hopens, Fields.adjust_append]
        congr 2
        · -- the fields that are given
          rw [Fields.adjust_eq_map (f := fun name x =>
            (((ps.declared.lookup name).map (plain text)).getD id) x)]
          · rw [List.map_map]
            apply List.map_congr_left
            intro f hf
            obtain ⟨t, ht, hdt⟩ := hdecl f hf
            have hmem := Fields.mem_of_lookup ht
            have hih := ihps _ hmem (honeps _ hmem) (hproperps _ hmem)
              (hproperfs f hf) (accepts_of_lookup ht (hall f hf)) hdt
            simp only [Function.comp_def, ht, Option.map_some,
              Option.getD_some, hih]
          · intro g hg
            obtain ⟨f, hf, rfl⟩ := List.mem_map.1 hg
            obtain ⟨t, ht, hdt⟩ := hdecl f hf
            have hmem := Fields.mem_of_lookup ht
            have hacc := accepts_of_lookup ht (hall f hf)
            have hstays : standsForOmission k ps f.1
                (encode text t f.2) = false := by
              cases hnull : f.2.isNull with
              | false =>
                exact standsForOmission_of_not_null
                  ((isNull_encode t f.2).trans hnull)
              | true =>
                rw [Json.isNull_iff] at hnull
                rw [hnull] at hacc ⊢
                rw [encode_flat rfl rfl, standsForOmission_null ht,
                  nullable_of_accepts (honeps _ hmem) hacc]
                simp
            simp only [ht, Option.map_some, Option.getD_some, hstays,
              Bool.false_eq_true, if_false]
        · -- the properties left out
          apply Fields.adjust_map_filter
          intro e he
          obtain ⟨hlook, -, hrequired⟩ :=
            of_mem_omitted hnodup hcomplete he
          rw [standsForOmission_null hlook, decide_eq_false hrequired,
            hlook]
          cases nullable e.2 with
          | true =>
            simp only [Bool.not_true, Bool.and_false,
              Bool.false_eq_true, if_false, if_true,
              Option.map_some, Option.getD_some, plain_null]
          | false => rfl
      | _ => exact hflat rfl rfl

example : nullFilled (.mapping { type := some (.str "object") }
      (.given [("a", .mapping
        { type := some (.arr [.str "string", .str "null"]) }
        .absent none .absent)]) none .forbidden) (.obj [])
    |>.same (.obj [("a", .null)]) := by decide +kernel

theorem restoreProperties_eq {plans : List (String × Plan)}
    {p : List PathSegment} {g : String → Json → Option Json}
    (hplans : (plans.map Prod.fst).Nodup) (hfs : (fs.map Prod.fst).Nodup)
    (h : ∀ e ∈ plans, ∀ x, fs.lookup e.1 = some x →
      restoreRoundTripValue text toolName e.2 x (p ++ [.key e.1])
        = .ok (g e.1 x)) :
    restoreProperties text toolName plans fs p
      = .ok (Fields.adjust (fun name x =>
          if name ∈ plans.map Prod.fst then g name x else some x)
          fs) := by
  induction plans generalizing fs with
  | nil =>
    rw [restoreProperties]
    congr 1
    rw [Fields.adjust_eq_map (f := fun _ x => x) fun e _ => by simp]
    simp
  | cons e plans ih =>
    obtain ⟨key, plan⟩ := e
    obtain ⟨hfresh, hplans'⟩ := List.nodup_cons.1 hplans
    have hmem : ∀ name, (name ∈ ((key, plan) :: plans).map Prod.fst
        ↔ name = key ∨ name ∈ plans.map Prod.fst) := by
      intro name
      rw [List.map_cons, List.mem_cons]
    -- what an adjustment of the one key leaves for the rest of the loop
    have hrest : ∀ a : String → Json → Option Json,
        (∀ name x, name ≠ key → a name x = some x) →
        restoreProperties text toolName plans (Fields.adjust a fs) p
          = .ok (Fields.adjust (fun name x => (a name x).bind fun y =>
            if name ∈ plans.map Prod.fst then g name y else some y)
            fs) := by
      intro a ha
      have hnodup : ((Fields.adjust a fs).map Prod.fst).Nodup :=
        Fields.keys_adjust_subset.nodup hfs
      rw [ih hplans' hnodup, Fields.adjust_adjust]
      intro e he x hx
      rw [Fields.lookup_eq_some_iff hnodup, Fields.mem_adjust] at hx
      obtain ⟨y, hy, hay⟩ := hx
      have hne : e.1 ≠ key := by
        intro heq
        exact hfresh (heq ▸ List.mem_map.2 ⟨e, he, rfl⟩)
      rw [ha _ _ hne, Option.some.injEq] at hay
      subst hay
      exact h e (List.mem_cons_of_mem _ he) y
        ((Fields.lookup_eq_some_iff hfs).2 hy)
    rw [restoreProperties]
    cases hlook : fs.lookup key with
    | none =>
      have hsame := hrest (fun _ x => some x) fun _ _ _ => rfl
      have hid : Fields.adjust (fun _ x => some x) fs = fs := by
        rw [Fields.adjust_eq_map (f := fun _ x => x) fun e _ => rfl]
        simp
      rw [hid] at hsame
      refine hsame.trans (congrArg _ (Fields.adjust_congr ?_))
      intro e he
      have hne : e.1 ≠ key := by
        intro heq
        have hkey : key ∈ fs.map Prod.fst :=
          heq ▸ List.mem_map.2 ⟨e, he, rfl⟩
        exact Fields.lookup_eq_none_iff.1 hlook hkey
      simp only [hmem, hne, false_or, Option.bind_some]
    | some inner =>
      have hinner := h (key, plan) List.mem_cons_self inner hlook
      show (restoreRoundTripValue text toolName plan inner
        (p ++ [.key key]) >>= _) = _
      rw [hinner]
      have hone : ∀ e ∈ fs, e.1 = key → e.2 = inner := by
        intro e he heq
        have hentry : (key, e.2) ∈ fs := heq ▸ he
        rw [← Fields.lookup_eq_some_iff hfs, hlook] at hentry
        exact (Option.some.inj hentry).symm
      cases hresult : g key inner with
      | none =>
        show restoreProperties text toolName plans
          (Fields.remove fs key) p = _
        rw [Fields.remove_eq_adjust, hrest _ fun name x hne => by
          simp [hne]]
        refine congrArg _ (Fields.adjust_congr ?_)
        intro e he
        by_cases heq : e.1 = key
        · have hx := hone e he heq
          simp only [heq, hx, hresult, hmem, true_or, if_true,
            Option.bind_none]
        · simp only [heq, hmem, if_false, false_or, Option.bind_some]
      | some v =>
        show restoreProperties text toolName plans
          (Fields.replace fs key v) p = _
        rw [Fields.replace_eq_adjust, hrest _ fun name x hne => by
          simp [hne]]
        refine congrArg _ (Fields.adjust_congr ?_)
        intro e he
        by_cases heq : e.1 = key
        · have hx := hone e he heq
          simp only [heq, hx, hresult, hmem, hfresh, true_or, if_true,
            if_false, Option.bind_some]
        · simp only [heq, hmem, if_false, false_or, Option.bind_some]

theorem restoreItems_eq {f : Json → List PathSegment →
      Except AdapterError (Option Json)} {g : Json → Json}
    {p : List PathSegment} {xs : List Json}
    (h : ∀ x ∈ xs, ∀ q, ∃ o, f x q = .ok o ∧ o.getD .null = g x)
    (index : Nat) : restoreItems f p index xs = .ok (xs.map g) := by
  induction xs generalizing index with
  | nil => rfl
  | cons x xs ih =>
    obtain ⟨o, ho, hg⟩ := h x List.mem_cons_self (p ++ [.index index])
    have htail := ih (fun y hy => h y (List.mem_cons_of_mem _ hy))
      (index + 1)
    rw [restoreItems, ho]
    show (restoreItems f p (index + 1) xs >>= _) = _
    rw [htail]
    show Except.ok (o.getD .null :: xs.map g) = _
    rw [hg, List.map_cons]

section Restoration

variable {omits : Bool} {plans : List (String × Plan)} {item : Option Plan}
  {p : List PathSegment}

theorem restore_flat {w : Json} (hobj : w.fields? = none)
    (harr : w.items? = none) :
    restoreRoundTripValue text toolName (.plan omits false plans item) w p
      = .ok (if w.isNull && omits then none else some w) := by
  rw [restoreRoundTripValue]
  cases w with
  | null => cases omits <;> rfl
  | arr xs => cases harr
  | obj fs => cases hobj
  | _ => rfl

-- The null of an optional node is left out, that of a nullable one kept.
example : (omitsNull { type := some (.str "string") } false,
    omitsNull { type := some (.arr [.str "string", .str "null"]) } false)
      = (true, false) := by decide +kernel

theorem restore_obj {fs gs : List (String × Json)}
    (h : restoreProperties text toolName plans fs p = .ok gs) :
    restoreRoundTripValue text toolName (.plan omits false plans item)
      (.obj fs) p = .ok (some (.obj gs)) := by
  rw [restoreRoundTripValue]
  show (restoreProperties text toolName plans fs p >>= _) = _
  rw [h]
  rfl

theorem restore_arr {plan : Plan} {xs ys : List Json}
    (h : restoreItems (fun v q => restoreRoundTripValue text toolName plan v q)
      p 0 xs = .ok ys) :
    restoreRoundTripValue text toolName (.plan omits false plans (some plan))
      (.arr xs) p = .ok (some (.arr ys)) := by
  rw [restoreRoundTripValue]
  show (restoreItems _ p 0 xs >>= _) = _
  rw [h]
  rfl

theorem restore_arr_none {xs : List Json} :
    restoreRoundTripValue text toolName (.plan omits false plans none)
      (.arr xs) p = .ok (some (.arr xs)) := by
  rw [restoreRoundTripValue]
  rfl

theorem restore_obj_nil {fs : List (String × Json)} :
    restoreRoundTripValue text toolName (.plan omits false [] item)
      (.obj fs) p = .ok (some (.obj fs)) :=
  restore_obj rfl

theorem restore_surrogate {w : Json} (h : holdsObject text w = true) :
    restoreRoundTripValue text toolName (.plan omits true [] none) w p
      = .ok (if w.isNull && omits then none
        else some (decodeOpen text w)) := by
  rw [restoreRoundTripValue]
  cases w with
  | null => cases omits <;> rfl
  | str t =>
    simp only [holdsObject] at h
    cases hload : text.loads t with
    | error e =>
      rw [hload] at h
      cases h
    | ok u =>
      rw [hload] at h
      cases u with
      | obj fs =>
        simp only [Json.isNull, decodeJsonObjectSurrogateValue, hload,
          decodeOpen, Bool.false_and, Bool.false_eq_true, false_and,
          if_false, if_true]
        rfl
      | _ => cases h
  | _ => cases h

end Restoration

/-- The restoration by the plan is the reading of the value, and leaves
out exactly the null of an optional node whose type does not admit it. -/
theorem restoreRoundTripValue_plain (s : Schema) :
    ∀ {path : String} {required : Bool} {n : NormalizedToolSchema}
      {w : Json} {p : List PathSegment},
      normalizeSchemaNode toolName s path required = .ok n → OneTyped s →
      s.Proper → w.Proper → holdsObjects text s w = true →
      restoreRoundTripValue text toolName n.restorationPlan w p
        = .ok (if w.isNull && omitsNull s.keywords required then none
          else some (plain text s w)) := by
  induction s using Schema.induct with
  | hother w =>
    intro path required n w p hn
    cases hn
  | hmapping k ps is ad ihps ihis _ =>
    intro path required n w p hn hone hproper hw hholds
    obtain ⟨htype, honeps, honeis⟩ := hone
    show restoreRoundTripValue text toolName n.restorationPlan w p
      = .ok (if w.isNull && omitsNull k required then none
        else some (plain text (.mapping k ps is ad) w))
    obtain ⟨hopens, rfl⟩ | ⟨hopens, hobject, children, hchildren, rfl⟩
        | ⟨hopens, harray, t, item, path', rfl, hitem, rfl⟩
        | ⟨hopens, hobject, harray, rfl⟩ :=
      normalizeSchemaNode_cases htype hn
    · -- an open object
      rw [holdsObjects_open w hopens] at hholds
      rw [plain_open w hopens]
      exact restore_surrogate hholds
    · -- a declared object
      obtain ⟨hkeys, hlookup⟩ := normalizeProperties_spec hchildren
      obtain ⟨hnodup, hproperps⟩ := hproper.declared
      cases w with
      | obj fs =>
        rw [holdsObjects_obj_iff fs hopens] at hholds
        have hproperfs := Json.properFields_iff.1 hw.2
        rw [plain_obj fs hopens hobject]
        refine (restore_obj (restoreProperties_eq (g := fun name x =>
            if standsForOmission k ps name x then none
            else some
              ((((ps.declared.lookup name).map (plain text)).getD id) x))
          ?_ hw.1 ?_)).trans ?_
        · rw [List.map_map]
          show (children.map Prod.fst).Nodup
          rw [hkeys]
          exact hnodup
        · intro e he x hx
          obtain ⟨c, hc, rfl⟩ := List.mem_map.1 he
          have hmemx := Fields.mem_of_lookup hx
          have hname : c.1 ∈ ps.declared.map Prod.fst :=
            hkeys ▸ List.mem_map.2 ⟨c, hc, rfl⟩
          have hckeys : (children.map Prod.fst).Nodup := hkeys ▸ hnodup
          rcases hlookup c.1 with ⟨hnone, -⟩
              | ⟨t, c', path', ht, hc', hcn⟩
          · exact absurd hname (Fields.lookup_eq_none_iff.1 hnone)
          · have hsame := (Fields.lookup_eq_some_iff hckeys).2 hc
            rw [hc', Option.some.injEq] at hsame
            subst hsame
            have hmem := Fields.mem_of_lookup ht
            refine (ihps _ hmem hcn (honeps _ hmem) (hproperps _ hmem)
              (hproperfs _ hmemx) (hholds _ hmemx t ht)).trans ?_
            rw [standsForOmission_eq ht, ht]
            rfl
        · refine congrArg (fun gs => Except.ok (some (Json.obj gs))) ?_
          refine Fields.adjust_congr ?_
          intro f hf
          rw [List.map_map]
          show (if f.1 ∈ children.map Prod.fst then _ else _) = _
          split
          · rfl
          · next hout =>
            rw [hkeys, ← Fields.lookup_eq_none_iff] at hout
            simp [standsForOmission, hout]
      | arr xs =>
        rw [plain_of_object hopens hobject rfl]
        exact restore_arr_none
      | _ =>
        rw [plain_of_object hopens hobject rfl]
        exact restore_flat rfl rfl
    · -- an array
      have hobject := not_object_of_array htype harray
      cases w with
      | arr xs =>
        rw [holdsObjects_arr_iff xs hopens] at hholds
        have hproperxs := Json.properItems_iff.1 hw
        rw [plain_arr xs hopens hobject harray]
        refine restore_arr (restoreItems_eq ?_ 0)
        intro x hx q
        refine ⟨_, ihis t rfl hitem (honeis t rfl) hproper.items
          (hproperxs x hx) (hholds t rfl x hx), ?_⟩
        simp [omitsNull]
      | obj fs =>
        rw [plain_of_array hopens hobject harray rfl]
        exact restore_obj_nil
      | _ =>
        rw [plain_of_array hopens hobject harray rfl]
        exact restore_flat rfl rfl
    · -- anything else
      rw [plain_of_scalar w hopens hobject harray]
      cases w with
      | obj fs => exact restore_obj_nil
      | arr xs => exact restore_arr_none
      | _ => exact restore_flat rfl rfl

theorem typed_of_strict {required : Bool} {w : Json} (htype : OneType k.type)
    (h : (strictKeywords k required).typed w = true)
    (hstays : (w.isNull && omitsNull k required) = false) :
    k.typed w = true := by
  rw [strictKeywords_typed htype, Bool.or_eq_true, Bool.and_eq_true] at h
  rcases h with h | ⟨hnull, hrequired⟩
  · exact h
  · rw [typed_iff htype]
    refine ⟨"null", ?_, hasType_null_iff.2 hnull⟩
    by_contra hout
    rw [hnull, Bool.true_and] at hstays
    unfold omitsNull at hstays
    rw [hrequired, Bool.true_and] at hstays
    simp [hout] at hstays

theorem decodeOpen_str {t : String} (h : holdsObject text (.str t) = true) :
    ∃ fs, decodeOpen text (.str t) = .obj fs := by
  simp only [holdsObject] at h
  cases hload : text.loads t with
  | error e =>
    rw [hload] at h
    cases h
  | ok u =>
    rw [hload] at h
    simp only [decodeOpen, hload]
    cases u with
    | obj fs => exact ⟨fs, rfl⟩
    | _ => cases h

theorem declared_of_opens {ad : Additional Schema}
    (h : opens k ps ad = true) : ps.declared = [] := by
  simp only [opens, Bool.and_eq_true, List.isEmpty_iff] at h
  exact h.1.2

theorem lookup_plainFields (k : Keywords) (ps : Slot (String × Schema))
    (f : String → Json → Json) (hfs : (fs.map Prod.fst).Nodup)
    (name : String) :
    ((Fields.adjust (fun name x =>
        if standsForOmission k ps name x then none else some (f name x))
        fs).lookup name).isSome = true
      ↔ ∃ x, fs.lookup name = some x
        ∧ standsForOmission k ps name x = false := by
  rw [Fields.lookup_isSome_iff]
  constructor
  · intro h
    obtain ⟨e, he, rfl⟩ := List.mem_map.1 h
    obtain ⟨x, hx, hsome⟩ := Fields.mem_adjust.1 he
    refine ⟨x, (Fields.lookup_eq_some_iff hfs).2 hx, ?_⟩
    cases hstands : standsForOmission k ps e.1 x with
    | false => rfl
    | true =>
      rw [if_pos hstands] at hsome
      cases hsome
  · intro ⟨x, hx, hstays⟩
    have hmem := Fields.mem_of_lookup hx
    refine List.mem_map.2 ⟨(name, f name x), ?_, rfl⟩
    refine Fields.mem_adjust.2 ⟨x, hmem, ?_⟩
    rw [if_neg (by rw [hstays]; decide)]

example : standsForOmission {} (.given [("a", .mapping
    { type := some (.str "string") } .absent none .absent)]) "a" .null
      = true := by decide +kernel

/-- What is read back from a value of the strict schema is valid exactly
where it meets the keywords that were copied, narrowed or dropped. -/
theorem accepts_plain_iff (s : Schema) :
    ∀ {path : String} {required : Bool} {n : NormalizedToolSchema}
      {w : Json}, normalizeSchemaNode toolName s path required = .ok n →
      OneTyped s → s.Proper → w.Proper → n.schema.accepts meaning w = true →
      holdsObjects text s w = true →
      (w.isNull && omitsNull s.keywords required) = false →
      (s.accepts meaning (plain text s w) = true
        ↔ Returns text meaning s w) := by
  induction s using Schema.induct with
  | hother w =>
    intro path required n w hn
    cases hn
  | hmapping k ps is ad ihps ihis _ =>
    intro path required n w hn hone hproper hw haccepts hholds hstays
    obtain ⟨htype, honeps, honeis⟩ := hone
    -- a value without parts is read as it is, and is valid as it is
    have hflat : opens k ps ad = false → w.fields? = none →
        w.items? = none → k.typed w = true → k.keeps meaning w = true →
        ((Schema.mapping k ps is ad).accepts meaning
            (plain text (.mapping k ps is ad) w) = true
          ↔ Returns text meaning (.mapping k ps is ad) w) := by
      intro hopens hobj harr htyped hkeeps
      have hplain : plain text (.mapping k ps is ad) w = w :=
        plain_flat hopens hobj harr
      rw [hplain, Schema.accepts_flat meaning hobj harr, htyped, hkeeps]
      refine ⟨fun _ => .node hopens ?_ ?_ ?_ ?_, fun _ => rfl⟩
      · rw [hplain]
        exact hkeeps
      · intro fs hfs
        rw [hfs] at hobj
        cases hobj
      · intro fs hfs
        rw [hfs] at hobj
        cases hobj
      · intro xs hxs
        rw [hxs] at harr
        cases harr
    obtain ⟨hopens, rfl⟩ | ⟨hopens, hobject, children, hchildren, rfl⟩
        | ⟨hopens, harray, t, item, path', rfl, hitem, rfl⟩
        | ⟨hopens, hobject, harray, rfl⟩ :=
      normalizeSchemaNode_cases htype hn
    · -- an open object
      obtain ⟨hstring, hkept⟩ := surrogate_accepts_iff.1 haccepts
      rw [holdsObjects_open w hopens] at hholds
      have hobject := mem_of_opens hopens
      rw [plain_open w hopens]
      rcases hstring with ⟨t, rfl⟩ | ⟨hnull, hrequired⟩
      · obtain ⟨fs, hfs⟩ := decodeOpen_str hholds
        have hnone : ps.declared = [] := declared_of_opens hopens
        have htyped : k.typed (.obj fs) = true :=
          (typed_iff htype).2 ⟨_, hobject, rfl⟩
        rw [hfs, Schema.accepts_mapping_iff]
        constructor
        · intro ⟨_, hkeeps, hfields, _⟩
          refine .surrogate hopens ?_
          intro gs hgs
          rw [hfs] at hgs
          cases hgs
          obtain ⟨hcomplete, hall⟩ := hfields fs rfl
          rw [hnone] at hall
          exact ⟨hkeeps, hcomplete, hall⟩
        · intro hreturns
          cases hreturns with
          | node hclosed => rw [hopens] at hclosed; cases hclosed
          | surrogate _ hheld =>
            obtain ⟨hkeeps, hcomplete, hall⟩ := hheld fs hfs
            refine ⟨htyped, hkeeps, ?_, ?_⟩
            · intro gs hgs
              cases hgs
              rw [hnone]
              exact ⟨hcomplete, hall⟩
            · intro xs hxs
              cases hxs
      · rw [Json.isNull_iff] at hnull
        subst hnull
        have hstrict : (strictKeywords k required).typed .null = true := by
          rw [strictKeywords_typed htype, hrequired]
          simp [Json.isNull]
        have htyped := typed_of_strict htype hstrict hstays
        have haccept : (Schema.mapping k ps is ad).accepts meaning .null
            = true := by
          rw [Schema.accepts_flat meaning rfl rfl, htyped, hkept]
          rfl
        refine ⟨fun _ => .surrogate hopens ?_, fun _ => haccept⟩
        intro fs hfs
        cases hfs
    · -- a declared object
      obtain ⟨hstrict, hkept, -, -⟩ :=
        (Schema.accepts_mapping_iff meaning).1 haccepts
      have hsame : (strictKeywords k required).keeps meaning w
          = k.keeps meaning w := strictKeywords_keeps w
      have hkeeps : k.keeps meaning w = true := hsame.symm.trans hkept
      have htyped := typed_of_strict htype hstrict hstays
      rcases obj_or_null htype hobject htyped with ⟨fs, rfl⟩ | rfl
      · obtain ⟨hkeys, hlookup⟩ := normalizeProperties_spec hchildren
        obtain ⟨hnodup, hproperps⟩ := hproper.declared
        obtain ⟨-, -, hall⟩ := (closed_accepts_iff htype hobject).1 haccepts
        rw [holdsObjects_obj_iff fs hopens] at hholds
        have hproperfs := Json.properFields_iff.1 hw.2
        -- a field that is read back
        have hread : ∀ f ∈ fs, standsForOmission k ps f.1 f.2 = false →
            ∃ t, ps.declared.lookup f.1 = some t
              ∧ (t.accepts meaning (plain text t f.2) = true
                ↔ Returns text meaning t f.2) := by
          intro f hf hstay
          obtain ⟨c, hc, haccept⟩ := hall f hf
          rcases hlookup f.1 with ⟨_, hnone⟩ | ⟨t, c', path', ht, hc', hcn⟩
          · rw [hc] at hnone
            cases hnone
          · rw [hc, Option.some.injEq] at hc'
            subst hc'
            have hmem := Fields.mem_of_lookup ht
            rw [standsForOmission_eq ht] at hstay
            exact ⟨t, ht, ihps _ hmem hcn (honeps _ hmem)
              (hproperps _ hmem) (hproperfs f hf) haccept
              (hholds f hf t ht) hstay⟩
        have hplain : plain text (.mapping k ps is ad) (.obj fs) = _ :=
          plain_obj fs hopens hobject
        have hlook := fun name => lookup_plainFields k ps
          (fun n x => (((ps.declared.lookup n).map (plain text)).getD id) x)
          hw.1 name
        constructor
        · intro haccept
          obtain ⟨_, hkeeps', hfields, _⟩ :=
            (Schema.accepts_mapping_iff meaning).1 haccept
          obtain ⟨hcomplete, hgs⟩ := hfields _ hplain
          refine .node hopens hkeeps' ?_ ?_ ?_
          · intro fs' hfs names hnames name hname
            cases hfs
            refine (hlook name).1 ?_
            unfold Keywords.complete at hcomplete
            rw [hnames, Option.all_some, List.all_eq_true] at hcomplete
            exact hcomplete name hname
          · intro fs' hfs f hf t ht hstay
            cases hfs
            obtain ⟨t', ht', hiff⟩ := hread f hf hstay
            rw [ht, Option.some.injEq] at ht'
            subst ht'
            refine hiff.1 (accepts_of_lookup ht
              (hgs (f.1, plain text t f.2) ?_))
            refine Fields.mem_adjust.2 ⟨f.2, hf, ?_⟩
            rw [if_neg (by rw [hstay]; decide), ht]
            rfl
          · intro xs hxs
            cases hxs
        · intro hreturns
          cases hreturns with
          | surrogate hopen => rw [hopens] at hopen; cases hopen
          | node _ hkeeps' hrequired hfields _ =>
            rw [Schema.accepts_mapping_iff]
            refine ⟨?_, hkeeps', ?_, ?_⟩
            · rw [hplain, typed_iff htype]
              exact ⟨_, hobject, rfl⟩
            · intro gs hgs
              rw [hplain] at hgs
              cases hgs
              constructor
              · unfold Keywords.complete
                cases hk : k.required with
                | none => rfl
                | some names =>
                  rw [Option.all_some, List.all_eq_true]
                  intro name hname
                  exact (hlook name).2
                    (hrequired fs rfl names hk name hname)
              · intro g hg
                obtain ⟨x, hx, hsome⟩ := Fields.mem_adjust.1 hg
                cases hstay : standsForOmission k ps g.1 x with
                | true =>
                  rw [if_pos hstay] at hsome
                  cases hsome
                | false =>
                  obtain ⟨t, ht, hiff⟩ := hread _ hx hstay
                  rw [if_neg (by rw [hstay]; decide), ht,
                    Option.some.injEq] at hsome
                  have hret := hfields fs rfl _ hx t ht hstay
                  unfold Schema.acceptsField
                  rw [ht, ← hsome]
                  exact hiff.2 hret
            · intro xs hxs
              rw [hplain] at hxs
              cases hxs
      · exact hflat hopens rfl rfl htyped hkeeps
    · -- an array
      obtain ⟨hstrict, hkept, -, hxs⟩ :=
        (Schema.accepts_mapping_iff meaning).1 haccepts
      rw [strictKeywords_keeps] at hkept
      have hobject := not_object_of_array htype harray
      have htyped := typed_of_strict htype hstrict hstays
      rcases arr_or_null htype harray htyped with ⟨xs, rfl⟩ | rfl
      · have hproperxs := Json.properItems_iff.1 hw
        have hholdsxs := (holdsObjects_arr_iff xs hopens).1 hholds t rfl
        have hih : ∀ x ∈ xs, (t.accepts meaning (plain text t x) = true
            ↔ Returns text meaning t x) := by
          intro x hx
          exact ihis t rfl hitem (honeis t rfl) hproper.items
            (hproperxs x hx) (hxs xs rfl _ rfl x hx) (hholdsxs x hx)
            (by simp [omitsNull])
        have hplain : plain text (.mapping k ps (some t) ad) (.arr xs)
            = .arr (xs.map (plain text t)) :=
          plain_arr xs hopens hobject harray
        constructor
        · intro haccept
          obtain ⟨_, hkeeps, _, hitems⟩ :=
            (Schema.accepts_mapping_iff meaning).1 haccept
          refine .node hopens hkeeps ?_ ?_ ?_
          · intro fs hfs
            cases hfs
          · intro fs hfs
            cases hfs
          · intro xs' hxs' u hu x hx
            cases hxs'
            cases hu
            exact (hih x hx).1 (hitems _ hplain _ rfl _
              (List.mem_map.2 ⟨x, hx, rfl⟩))
        · intro hreturns
          cases hreturns with
          | surrogate hopen => rw [hopens] at hopen; cases hopen
          | node _ hkeeps _ _ hitems =>
            rw [Schema.accepts_mapping_iff]
            refine ⟨?_, hkeeps, ?_, ?_⟩
            · rw [hplain, typed_iff htype]
              exact ⟨_, harray, rfl⟩
            · intro fs hfs
              rw [hplain] at hfs
              cases hfs
            · intro ys hys u hu y hy
              rw [hplain] at hys
              cases hys
              cases hu
              obtain ⟨x, hx, rfl⟩ := List.mem_map.1 hy
              exact (hih x hx).2 (hitems xs rfl t rfl x hx)
      · exact hflat hopens rfl rfl htyped hkept
    · -- anything else
      obtain ⟨hstrict, hkept, -, -⟩ :=
        (Schema.accepts_mapping_iff meaning).1 haccepts
      rw [strictKeywords_keeps] at hkept
      have htyped := typed_of_strict htype hstrict hstays
      exact hflat hopens (fields?_of_not_object htype hobject htyped)
        (items?_of_not_array htype harray htyped) htyped hkept

theorem holdsObjects_flat {v : Json} (hobj : v.fields? = none)
    (harr : v.items? = none) (hopen : ∀ k ps is ad, s = .mapping k ps is ad →
      opens k ps ad = true → holdsObject text v = true) :
    holdsObjects text s v = true := by
  cases s with
  | other w => rfl
  | mapping k ps is ad =>
    rw [holdsObjects_mapping]
    split
    · next ho => exact hopen k ps is ad rfl ho
    · rw [hobj, harr]
      rfl

theorem nodup_encoded {g : String × Json → Json}
    (hps : (ps.declared.map Prod.fst).Nodup) (hfs : (fs.map Prod.fst).Nodup) :
    (((fs.map fun f => (f.1, g f))
      ++ (omitted ps fs).map fun e => (e.1, Json.null)).map Prod.fst).Nodup := by
  rw [List.map_append, List.map_map, List.map_map]
  have hom : ((omitted ps fs).map Prod.fst).Nodup :=
    (List.filter_sublist.map Prod.fst).nodup hps
  refine List.Nodup.append hfs hom ?_
  intro name hname hleft
  obtain ⟨e, he, rfl⟩ := List.mem_map.1 hleft
  have hnone := (List.mem_filter.1 he).2
  rw [Option.isNone_iff_eq_none] at hnone
  exact Fields.lookup_eq_none_iff.1 hnone hname

variable (text) in
theorem encode_proper (s : Schema) :
    ∀ {v : Json}, OneTyped s → s.Proper → v.Proper →
      s.accepts meaning v = true → declaredOnly s v = true →
      (encode text s v).Proper
        ∧ holdsObjects text s (encode text s v) = true := by
  induction s using Schema.induct with
  | hother w =>
    intro v _ _ _ haccepts _
    cases haccepts
  | hmapping k ps is ad ihps ihis _ =>
    intro v hone hproper hv haccepts hdeclared
    obtain ⟨htype, honeps, honeis⟩ := hone
    obtain ⟨htyped, hkeeps, hfields, hitems⟩ :=
      (Schema.accepts_mapping_iff meaning).1 haccepts
    cases hopens : opens k ps ad with
    | true =>
      rw [encode_open v hopens, holdsObjects_open _ hopens]
      rcases obj_or_null htype (mem_of_opens hopens) htyped
        with ⟨fs, rfl⟩ | rfl
      · refine ⟨trivial, ?_⟩
        show ((text.loads (text.dumps (.obj fs))).toOption.bind
          Json.fields?).isSome = true
        rw [text.loads_dumps _ hv]
        rfl
      · exact ⟨trivial, rfl⟩
    | false =>
      have hflat : v.fields? = none → v.items? = none →
          (encode text (.mapping k ps is ad) v).Proper
          ∧ holdsObjects text (.mapping k ps is ad)
            (encode text (.mapping k ps is ad) v) = true := by
        intro hobj harr
        rw [encode_flat hobj harr]
        refine ⟨hv, holdsObjects_flat hobj harr ?_⟩
        intro k' ps' is' ad' heq ho
        cases heq
        rw [hopens] at ho
        cases ho
      cases v with
      | arr xs =>
        rw [encode_arr xs hopens, holdsObjects_arr_iff _ hopens]
        have hproperxs := Json.properItems_iff.1 hv
        have hih : ∀ t, is = some t → ∀ x ∈ xs,
            (encode text t x).Proper
            ∧ holdsObjects text t (encode text t x) = true := by
          intro t ht x hx
          subst ht
          exact ihis t rfl (honeis t rfl) hproper.items
            (hproperxs x hx) (hitems xs rfl t rfl x hx)
            (declaredOnly_arr hopens hdeclared x hx)
        constructor
        · refine Json.properItems_iff.2 ?_
          intro y hy
          obtain ⟨x, hx, rfl⟩ := List.mem_map.1 hy
          cases is with
          | none => exact hproperxs x hx
          | some t => exact (hih t rfl x hx).1
        · intro t ht y hy
          subst ht
          obtain ⟨x, hx, rfl⟩ := List.mem_map.1 hy
          exact (hih t rfl x hx).2
      | obj fs =>
        obtain ⟨hnodup, hproperps⟩ := hproper.declared
        obtain ⟨-, hall⟩ := hfields fs rfl
        have hproperfs := Json.properFields_iff.1 hv.2
        have hdecl := declaredOnly_obj hopens hdeclared
        have hih : ∀ f ∈ fs, ∀ t, ps.declared.lookup f.1 = some t →
            (encode text t f.2).Proper
            ∧ holdsObjects text t (encode text t f.2) = true := by
          intro f hf t ht
          obtain ⟨t', ht', hdt⟩ := hdecl f hf
          rw [ht, Option.some.injEq] at ht'
          subst ht'
          have hmem := Fields.mem_of_lookup ht
          exact ihps _ hmem (honeps _ hmem) (hproperps _ hmem)
            (hproperfs f hf) (accepts_of_lookup ht (hall f hf)) hdt
        rw [encode_obj fs hopens, holdsObjects_obj_iff _ hopens]
        refine ⟨⟨nodup_encoded hnodup hv.1, ?_⟩, ?_⟩
        · refine Json.properFields_iff.2 ?_
          intro g hg
          rcases List.mem_append.1 hg with hg | hg
          · obtain ⟨f, hf, rfl⟩ := List.mem_map.1 hg
            obtain ⟨t, ht, -⟩ := hdecl f hf
            rw [ht]
            exact (hih f hf t ht).1
          · obtain ⟨e, he, rfl⟩ := List.mem_map.1 hg
            exact trivial
        · intro g hg t ht
          rcases List.mem_append.1 hg with hg | hg
          · obtain ⟨f, hf, rfl⟩ := List.mem_map.1 hg
            simp only at ht
            rw [ht]
            exact (hih f hf t ht).2
          · obtain ⟨e, he, rfl⟩ := List.mem_map.1 hg
            exact holdsObjects_flat rfl rfl fun _ _ _ _ _ _ => rfl
      | _ => exact hflat rfl rfl

end WeaveRuntime.ToolSchemas
