/-
What a tool registry calls its tools: the representation invariant of its
alias table, and the registrations that break it.

# The invariant and its exceptions

`Aliased` holds of every registry: what the table says about an alias is
true of the tool it names. The other direction, that an alias a tool lists
is found under that tool (`Resolves`), is kept by `remove` and by every
registration but two kinds, and it is lost by all of these
(`resolves_step_iff`):

- an alias is taken from a tool of lower priority. The table forgets the
  old owner at once, before it is known whether the new tool is registered
  at all, and the old owner goes on listing the alias;
- a tool is registered for the first time under what is the alias of
  another tool, so a lookup of that alias finds the new tool.

Where `Resolves` holds, `get` is the inverse of `matches`
(`get_eq_some_iff_matches`), and no name is matched by two tools.
-/
import WeaveRuntime.Registries.ToolRegistry

namespace WeaveRuntime.Registries

open Lib

variable {β : Type}

-- ========== statements

/-- Every entry of the alias table names a registered tool that lists the
alias, and tools are registered under their names. -/
structure Aliased (reg : ToolRegistry β) : Prop where
  named : ∀ name definition, reg.entries.get? name = some definition →
    definition.name = name
  listed : ∀ aliasName owner, reg.aliases.get? aliasName = some owner →
    ∃ definition, reg.entries.get? owner = some definition
      ∧ aliasName ∈ definition.aliases

/-- Every alias a registered tool lists resolves to that tool. -/
def Resolves (reg : ToolRegistry β) : Prop :=
  ∀ definition ∈ reg.definitions, ∀ aliasName ∈ definition.aliases,
    reg.get aliasName = some definition

def Unambiguous (reg : ToolRegistry β) : Prop :=
  ∀ d ∈ reg.definitions, ∀ e ∈ reg.definitions, ∀ name,
    d.matches name = true → e.matches name = true → d = e

/-- The call registers nothing: the definition is skipped, or the call
raises. -/
def leavesOut :
    Except RegistryConflictError (RegistryRegistration β) → Bool
  | .ok registration => registration.action == .skipped
  | .error _ => true

/-- A registration that is skipped or raises changes no lookup. -/
def Quiet (reg : ToolRegistry β) : RegistryCall β → Prop
  | .register definition =>
    leavesOut (reg.register definition).1 = true →
      ∀ name, (reg.register definition).2.get name = reg.get name
  | .remove _ => True

/-- The definition takes this alias from another tool. -/
def Takeover (reg : ToolRegistry β) (definition : ToolDefinition β)
    (aliasName : String) : Prop :=
  aliasName ≠ "" ∧ aliasName ≠ definition.name
    ∧ ∃ owner, displaced reg.entries reg.aliases definition aliasName
        = some owner

/-- The call takes no alias from a tool of lower priority, and registers no
new tool under the alias of another one. -/
def Courteous (reg : ToolRegistry β) : RegistryCall β → Prop
  | .register definition =>
    (∀ aliasName ∈ definition.aliases,
      ¬ Takeover reg definition aliasName)
    ∧ (reg.entries.get? definition.name = none →
      reg.aliases.get? definition.name = none)
  | .remove _ => True

-- ============= lookups

variable {a : String} {call : RegistryCall β}
  {d definition : ToolDefinition β} {name : String}
  {reg reg' : ToolRegistry β}

theorem mem_definitions :
    d ∈ reg.definitions ↔ ∃ name, reg.entries.get? name = some d :=
  Dict.mem_values_iff

theorem Aliased.get?_name (h : Aliased reg) (hd : d ∈ reg.definitions) :
    reg.entries.get? d.name = some d := by
  obtain ⟨name, hname⟩ := mem_definitions.1 hd
  rw [h.named name d hname]
  exact hname

theorem get_of_entry (h : reg.entries.get? name = some d) :
    reg.get name = some d := by
  simp only [ToolRegistry.get, h]

theorem get_of_no_entry (h : reg.entries.get? name = none) :
    reg.get name = reg.aliases.get? name >>= reg.entries.get? := by
  simp only [ToolRegistry.get, h]

theorem Aliased.get_matches (h : Aliased reg) (hget : reg.get name = some d) :
    d ∈ reg.definitions ∧ d.matches name = true := by
  cases hentry : reg.entries.get? name with
  | some e =>
    rw [get_of_entry hentry] at hget
    cases hget
    refine ⟨mem_definitions.2 ⟨name, hentry⟩, matches_iff.2 ?_⟩
    exact Or.inl (h.named name d hentry).symm
  | none =>
    rw [get_of_no_entry hentry] at hget
    obtain ⟨owner, howner, hd⟩ := Option.bind_eq_some_iff.1 hget
    obtain ⟨e, he, hmem⟩ := h.listed name owner howner
    rw [hd] at he
    cases he
    exact ⟨mem_definitions.2 ⟨owner, hd⟩, matches_iff.2 (Or.inr hmem)⟩

/-- Where aliases resolve, a lookup of a name is the tool that goes by
it. -/
theorem get_eq_some_iff_matches (h : Aliased reg) (hres : Resolves reg) :
    reg.get name = some d ↔ d ∈ reg.definitions ∧ d.matches name = true := by
  refine ⟨h.get_matches, fun ⟨hd, hmatch⟩ => ?_⟩
  rcases matches_iff.1 hmatch with rfl | hmem
  · exact get_of_entry (h.get?_name hd)
  · exact hres d hd name hmem

theorem unambiguous_of_resolves (h : Aliased reg) (hres : Resolves reg) :
    Unambiguous reg := by
  intro d hd e he name hdm hem
  have hfindD := (get_eq_some_iff_matches h hres).2 ⟨hd, hdm⟩
  have hfindE := (get_eq_some_iff_matches h hres).2 ⟨he, hem⟩
  rw [hfindD] at hfindE
  exact Option.some.inj hfindE

theorem displaced_eq_some {entries : Dict String (ToolDefinition β)}
    {table : Dict String String} {aliasName owner : String}
    (h : displaced entries table definition aliasName = some owner) :
    table.get? aliasName = some owner ∧ owner ≠ definition.name
      ∧ ∃ existing, entries.get? owner = some existing
        ∧ aliasName ≠ existing.name := by
  unfold displaced at h
  obtain ⟨owner', howner, h⟩ := Option.bind_eq_some_iff.1 h
  obtain ⟨existing, hexisting, h⟩ := Option.bind_eq_some_iff.1 h
  split at h
  · next hcond =>
    cases h
    exact ⟨howner, hcond.1, existing, hexisting, hcond.2.2⟩
  · cases h

-- ========= preparation

/-- The alias is kept: it is taken from another tool, or it is free. -/
def Kept (reg : ToolRegistry β) (definition : ToolDefinition β)
    (aliasName : String) : Prop :=
  Takeover reg definition aliasName
    ∨ (aliasName ≠ "" ∧ aliasName ≠ definition.name
      ∧ (reg.aliases.get? aliasName = none
        ∨ reg.aliases.get? aliasName = some definition.name)
      ∧ reg.entries.get? aliasName = none)

/-- Where the loop stands after these aliases. -/
structure Prepared (reg : ToolRegistry β) (definition : ToolDefinition β)
    (done : List String) (p : Preparation) : Prop where
  kept : ∀ a, a ∈ p.filteredAliases ↔ a ∈ done ∧ Kept reg definition a
  taken : ∀ a ∈ done, Takeover reg definition a → p.table.get? a = none
  others : ∀ a, ¬ (a ∈ done ∧ Takeover reg definition a) →
    p.table.get? a = reg.aliases.get? a

theorem not_contains_iff {entries : Dict String (ToolDefinition β)} :
    ¬ entries.contains name = true ↔ entries.get? name = none := by
  rw [Dict.contains_iff, Dict.get?_eq_none_iff]

/-- What one turn of the loop does with an alias it has not kept yet. -/
inductive AliasStep (reg : ToolRegistry β) (definition : ToolDefinition β)
    (p : Preparation) (a : String) : Preparation → Prop
  | takes (p' : Preparation) (h : Takeover reg definition a)
      (hkeep : p'.filteredAliases = p.filteredAliases ++ [a])
      (htable : p'.table = p.table.erase a) : AliasStep reg definition p a p'
  | keeps (p' : Preparation) (h : Kept reg definition a)
      (hfree : ¬ Takeover reg definition a)
      (hkeep : p'.filteredAliases = p.filteredAliases ++ [a])
      (htable : p'.table = p.table) : AliasStep reg definition p a p'
  | drops (p' : Preparation)
      (h : a ∈ p.filteredAliases ∨ ¬ Kept reg definition a)
      (hkeep : p'.filteredAliases = p.filteredAliases)
      (htable : p'.table = p.table) : AliasStep reg definition p a p'

theorem displaced_congr (entries : Dict String (ToolDefinition β))
    {table table' : Dict String String} (definition : ToolDefinition β)
    (h : table.get? a = table'.get? a) :
    displaced entries table definition a
      = displaced entries table' definition a := by
  unfold displaced
  rw [h]

theorem prepareAlias_step (definition : ToolDefinition β) {p : Preparation}
    (hsame : a ∉ p.filteredAliases → p.table.get? a = reg.aliases.get? a) :
    AliasStep reg definition p a
      (prepareAlias reg.entries definition p a) := by
  unfold prepareAlias
  split
  · next hskip =>
    refine .drops p ?_ rfl rfl
    rcases hskip with hempty | hname | hmem
    · exact Or.inr (by simp [Kept, Takeover, hempty])
    · exact Or.inr (by simp [Kept, Takeover, hname])
    · exact Or.inl hmem
  · next hskip =>
    have hne : a ≠ "" := fun h => hskip (Or.inl h)
    have hown : a ≠ definition.name := fun h => hskip (Or.inr (Or.inl h))
    have htable := hsame fun h => hskip (Or.inr (Or.inr h))
    rw [displaced_congr reg.entries definition htable, htable]
    -- the alias is free where no other tool owns it and no tool is named so
    have hfree : ∀ {q : Preparation},
        ¬ Takeover reg definition a →
        (reg.aliases.get? a = none
          ∨ reg.aliases.get? a = some definition.name) →
        q = (if reg.entries.contains a then
            p.report (aliasNameConflict definition a) else p.keep a) →
        AliasStep reg definition p a q := by
      intro q htake howner hq
      subst hq
      split
      · next hcontains =>
        refine .drops _ (Or.inr fun hkept => ?_) rfl rfl
        rcases hkept with h | ⟨-, -, -, hentry⟩
        · exact htake h
        · exact not_contains_iff.2 hentry hcontains
      · next hcontains =>
        exact .keeps _ (Or.inr ⟨hne, hown, howner,
          not_contains_iff.1 hcontains⟩) htake rfl rfl
    split
    · next owner howner =>
      split
      · next hother =>
        split
        · next owner' hdisplaced =>
          exact .takes _ ⟨hne, hown, owner', hdisplaced⟩ rfl rfl
        · next hdisplaced =>
          refine .drops _ (Or.inr fun hkept => ?_) rfl rfl
          rcases hkept with ⟨-, -, o, ho⟩ | ⟨-, -, hown', -⟩
          · rw [hdisplaced] at ho
            cases ho
          · rw [howner] at hown'
            rcases hown' with h | h
            · cases h
            · exact hother (Option.some.inj h)
      · next hsameName =>
        have heq : owner = definition.name := not_not.1 hsameName
        refine hfree (fun h => ?_) (Or.inr (by rw [howner, heq])) rfl
        obtain ⟨-, -, o, ho⟩ := h
        obtain ⟨htab, hne', -⟩ := displaced_eq_some ho
        rw [howner] at htab
        exact hne' ((Option.some.inj htab).symm.trans heq)
    · next hnone =>
      refine hfree (fun h => ?_) (Or.inl hnone) rfl
      obtain ⟨-, -, o, ho⟩ := h
      rw [(displaced_eq_some ho).1] at hnone
      cases hnone

theorem Prepared.mem_concat {done : List String} {p : Preparation}
    (h : Prepared reg definition done p) (hk : Kept reg definition a)
    (b : String) :
    b ∈ p.filteredAliases ++ [a]
      ↔ b ∈ done ++ [a] ∧ Kept reg definition b := by
  rw [List.mem_append, List.mem_append, h.kept b, List.mem_singleton]
  refine ⟨fun hb => ?_, fun hb => ?_⟩
  · rcases hb with ⟨hd, hkb⟩ | rfl
    · exact ⟨Or.inl hd, hkb⟩
    · exact ⟨Or.inr rfl, hk⟩
  · obtain ⟨hd | rfl, hkb⟩ := hb
    · exact Or.inl ⟨hd, hkb⟩
    · exact Or.inr rfl

theorem taken_concat (done : List String)
    (hdone : Takeover reg definition a → a ∈ done) (b : String) :
    (b ∈ done ++ [a] ∧ Takeover reg definition b)
      ↔ b ∈ done ∧ Takeover reg definition b := by
  rw [List.mem_append, List.mem_singleton]
  refine ⟨fun h => ?_, fun h => ⟨Or.inl h.1, h.2⟩⟩
  obtain ⟨hb | rfl, ht⟩ := h
  · exact ⟨hb, ht⟩
  · exact ⟨hdone ht, ht⟩

theorem Prepared.step {done : List String} {p : Preparation}
    (h : Prepared reg definition done p) (a : String) :
    Prepared reg definition (done ++ [a])
      (prepareAlias reg.entries definition p a) := by
  have hsame : a ∉ p.filteredAliases →
      p.table.get? a = reg.aliases.get? a := by
    intro hmem
    refine h.others a fun htaken => hmem ?_
    exact (h.kept a).2 ⟨htaken.1, Or.inl htaken.2⟩
  cases prepareAlias_step definition hsame with
  | takes htake hkeep htable =>
    refine ⟨fun b => ?_, fun b hb hbtake => ?_, fun b hb => ?_⟩
    · rw [hkeep]
      exact h.mem_concat (Or.inl htake) b
    · rw [htable, Dict.get?_erase]
      split
      · rfl
      · next hne =>
        rcases List.mem_append.1 hb with hb | hb
        · exact h.taken b hb hbtake
        · exact absurd (List.mem_singleton.1 hb) hne
    · rw [List.mem_append, List.mem_singleton] at hb
      have hne : b ≠ a := by
        intro heq
        rw [heq] at hb
        exact hb ⟨Or.inr rfl, htake⟩
      rw [htable, Dict.get?_erase_of_ne _ hne]
      exact h.others b fun htaken => hb ⟨Or.inl htaken.1, htaken.2⟩
  | keeps hk hfree hkeep htable =>
    have hiff := taken_concat done fun ht => absurd ht hfree
    refine ⟨fun b => ?_, fun b hb ht => ?_, fun b hb => ?_⟩
    · rw [hkeep]
      exact h.mem_concat hk b
    · rw [htable]
      exact h.taken b ((hiff b).1 ⟨hb, ht⟩).1 ht
    · rw [htable]
      exact h.others b fun hd => hb ((hiff b).2 hd)
  | drops hd hkeep htable =>
    have hiff := taken_concat done fun ht => by
      rcases hd with hmem | hk
      · exact ((h.kept a).1 hmem).1
      · exact absurd (Or.inl ht) hk
    refine ⟨fun b => ?_, fun b hb ht => ?_, fun b hb => ?_⟩
    · rw [hkeep, h.kept b, List.mem_append, List.mem_singleton]
      refine ⟨fun hmem => ⟨Or.inl hmem.1, hmem.2⟩, fun hmem => ?_⟩
      obtain ⟨hb | rfl, hk⟩ := hmem
      · exact ⟨hb, hk⟩
      · rcases hd with hmem | hnot
        · exact (h.kept b).1 hmem
        · exact absurd hk hnot
    · rw [htable]
      exact h.taken b ((hiff b).1 ⟨hb, ht⟩).1 ht
    · rw [htable]
      exact h.others b fun hd => hb ((hiff b).2 hd)

theorem prepared_foldl (reg : ToolRegistry β)
    (definition : ToolDefinition β) (done : List String) :
    Prepared reg definition done
      (done.foldl (prepareAlias reg.entries definition)
        ⟨reg.aliases, [], []⟩) := by
  induction done using List.reverseRecOn with
  | nil =>
    refine ⟨fun a => ?_, fun a ha => ?_, fun a _ => rfl⟩
    · simp
    · simp at ha
  | append_singleton done a ih =>
    rw [List.foldl_append]
    exact ih.step a

theorem prepared (reg : ToolRegistry β) (definition : ToolDefinition β) :
    Prepared reg definition definition.aliases
      (prepareAliases reg definition) :=
  prepared_foldl reg definition definition.aliases

-- =========== the table

theorem get?_onAdd_foldl (aliases : List String) (name : String)
    (table : Dict String String) (a : String) :
    (aliases.foldl (fun table aliasName => table.insert aliasName name)
        table).get? a
      = if a ∈ aliases then some name else table.get? a := by
  induction aliases generalizing table with
  | nil => simp
  | cons b aliases ih =>
    rw [List.foldl_cons, ih, Dict.get?_insert]
    by_cases ha : a ∈ aliases
    · simp [ha]
    · by_cases hb : a = b
      · simp [hb]
      · simp [ha, hb]

theorem get?_onAdd (table : Dict String String) (d : ToolDefinition β)
    (a : String) :
    (onAdd table d).get? a
      = if a ∈ d.aliases then some d.name else table.get? a :=
  get?_onAdd_foldl d.aliases d.name table a

theorem get?_onRemove_foldl (aliases : List String) (name : String)
    (table : Dict String String) (a : String) :
    (aliases.foldl
        (fun table aliasName =>
          if table.get? aliasName = some name then table.erase aliasName
          else table)
        table).get? a
      = if a ∈ aliases ∧ table.get? a = some name then none
        else table.get? a := by
  induction aliases generalizing table with
  | nil => simp
  | cons b aliases ih =>
    rw [List.foldl_cons, ih]
    by_cases hb : table.get? b = some name
    · rw [if_pos hb, Dict.get?_erase]
      by_cases ha : a = b
      · simp [ha, hb]
      · simp [ha]
    · rw [if_neg hb]
      by_cases ha : a = b
      · simp [ha, hb]
      · simp [ha]

theorem get?_onRemove (table : Dict String String) (d : ToolDefinition β)
    (a : String) :
    (onRemove table d).get? a
      = if a ∈ d.aliases ∧ table.get? a = some d.name then none
        else table.get? a :=
  get?_onRemove_foldl d.aliases d.name table a

-- ======== registration

def settled (reg : ToolRegistry β) (definition : ToolDefinition β) :
    ToolDefinition β :=
  { definition with
    aliases := (prepareAliases reg definition).filteredAliases }

/-- The registry whose table has lost the taken aliases. -/
def robbed (reg : ToolRegistry β) (definition : ToolDefinition β) :
    ToolRegistry β :=
  { reg with aliases := (prepareAliases reg definition).table }

@[simp] theorem settled_name (reg : ToolRegistry β)
    (definition : ToolDefinition β) :
    (settled reg definition).name = definition.name := rfl

@[simp] theorem robbed_entries (reg : ToolRegistry β)
    (definition : ToolDefinition β) :
    (robbed reg definition).entries = reg.entries := rfl

theorem mem_settled_aliases :
    a ∈ (settled reg definition).aliases
      ↔ a ∈ definition.aliases ∧ Kept reg definition a :=
  (prepared reg definition).kept a

theorem get?_robbed_of_taken (h : a ∈ definition.aliases)
    (ht : Takeover reg definition a) :
    (robbed reg definition).aliases.get? a = none :=
  (prepared reg definition).taken a h ht

theorem get?_of_robbed {owner : String}
    (h : (robbed reg definition).aliases.get? a = some owner) :
    reg.aliases.get? a = some owner := by
  by_cases ht : a ∈ definition.aliases ∧ Takeover reg definition a
  · rw [get?_robbed_of_taken ht.1 ht.2] at h
    cases h
  · exact ((prepared reg definition).others a ht).symm.trans h

theorem get?_robbed_of_courteous
    (h : ∀ a ∈ definition.aliases, ¬ Takeover reg definition a) (a : String) :
    (robbed reg definition).aliases.get? a = reg.aliases.get? a :=
  (prepared reg definition).others a fun ⟨hmem, ht⟩ => h a hmem ht

/-- What a registration does: the prepared definition enters, it takes the
place of the one of its name, or it is left out. -/
inductive Registered (reg : ToolRegistry β)
    (definition : ToolDefinition β) :
    Except RegistryConflictError (RegistryRegistration β)
      × ToolRegistry β → Prop
  | enters (result)
      (hnew : reg.entries.get? definition.name = none)
      (hin : leavesOut result = false) :
      Registered reg definition
        (result, (robbed reg definition).add (settled reg definition))
  | replaces (result) (existing)
      (hold : reg.entries.get? definition.name = some existing)
      (hin : leavesOut result = false) :
      Registered reg definition
        (result,
          (robbed reg definition).swap existing (settled reg definition))
  | leaves (result) (existing)
      (hold : reg.entries.get? definition.name = some existing)
      (hout : leavesOut result = true) :
      Registered reg definition (result, robbed reg definition)

theorem registered (reg : ToolRegistry β) (definition : ToolDefinition β) :
    Registered reg definition (reg.register definition) := by
  have hregister : reg.register definition
      = (robbed reg definition).enter (settled reg definition)
        (prepareAliases reg definition).diagnostics := rfl
  rw [hregister]
  unfold ToolRegistry.enter
  rw [robbed_entries, settled_name]
  cases hentry : reg.entries.get? definition.name with
  | none => exact .enters _ hentry rfl
  | some existing =>
    dsimp only
    split
    · exact .replaces _ existing hentry rfl
    · split
      · exact .leaves _ existing hentry rfl
      · split
        · exact .leaves _ existing hentry rfl
        · split
          · exact .leaves _ existing hentry rfl
          · exact .replaces _ existing hentry rfl

/-- The definition is in: it is registered under its name, the aliases it
keeps are its own, and no other alias is left to its name. -/
structure Entered (reg : ToolRegistry β) (definition : ToolDefinition β)
    (reg' : ToolRegistry β) : Prop where
  entries : reg'.entries
    = reg.entries.insert definition.name (settled reg definition)
  own : ∀ a ∈ (settled reg definition).aliases,
    reg'.aliases.get? a = some definition.name
  others : ∀ a, a ∉ (settled reg definition).aliases → ∀ owner,
    reg'.aliases.get? a = some owner
      ↔ (robbed reg definition).aliases.get? a = some owner
        ∧ owner ≠ definition.name

theorem Aliased.mem_of_robbed (h : Aliased reg) {existing : ToolDefinition β}
    (hold : reg.entries.get? definition.name = some existing)
    (ha : (robbed reg definition).aliases.get? a = some definition.name) :
    a ∈ existing.aliases := by
  obtain ⟨d, hd, hmem⟩ := h.listed a _ (get?_of_robbed ha)
  rw [hold] at hd
  cases hd
  exact hmem

theorem Aliased.entered_add (h : Aliased reg)
    (hnew : reg.entries.get? definition.name = none) :
    Entered reg definition
      ((robbed reg definition).add (settled reg definition)) := by
  refine ⟨rfl, fun a ha => ?_, fun a ha owner => ?_⟩
  · exact (get?_onAdd _ _ a).trans (if_pos ha)
  · have htable : ((robbed reg definition).add
        (settled reg definition)).aliases.get? a
        = (robbed reg definition).aliases.get? a :=
      (get?_onAdd _ _ a).trans (if_neg ha)
    rw [htable]
    refine ⟨fun howner => ⟨howner, fun heq => ?_⟩, And.left⟩
    obtain ⟨d, hd, -⟩ := h.listed a owner (get?_of_robbed howner)
    rw [heq, hnew] at hd
    cases hd

theorem Aliased.entered_swap (h : Aliased reg) {existing : ToolDefinition β}
    (hold : reg.entries.get? definition.name = some existing) :
    Entered reg definition
      ((robbed reg definition).swap existing (settled reg definition)) := by
  refine ⟨rfl, fun a ha => ?_, fun a ha owner => ?_⟩
  · exact (get?_onAdd _ _ a).trans (if_pos ha)
  · have hname := h.named _ _ hold
    have htable : ((robbed reg definition).swap existing
        (settled reg definition)).aliases.get? a
        = if a ∈ existing.aliases
            ∧ (robbed reg definition).aliases.get? a
              = some definition.name
          then none else (robbed reg definition).aliases.get? a := by
      refine (get?_onAdd _ _ a).trans ((if_neg ha).trans ?_)
      rw [get?_onRemove, hname]
    rw [htable]
    split
    · next hgone =>
      refine ⟨fun hnone => (Option.some_ne_none _ hnone.symm).elim,
        fun hother => ?_⟩
      obtain ⟨howner, hne⟩ := hother
      rw [hgone.2] at howner
      exact (hne (Option.some.inj howner).symm).elim
    · next hstays =>
      refine ⟨fun howner => ⟨howner, fun heq => hstays ?_⟩, And.left⟩
      rw [heq] at howner
      exact ⟨h.mem_of_robbed hold howner, howner⟩

theorem register_cases (h : Aliased reg) (definition : ToolDefinition β) :
    (leavesOut (reg.register definition).1 = false
      ∧ Entered reg definition (reg.register definition).2)
    ∨ (leavesOut (reg.register definition).1 = true
      ∧ (reg.register definition).2 = robbed reg definition
      ∧ ∃ existing, reg.entries.get? definition.name = some existing) := by
  have hcase := registered reg definition
  generalize reg.register definition = after at hcase ⊢
  cases hcase with
  | enters result hnew hin => exact Or.inl ⟨hin, h.entered_add hnew⟩
  | replaces result existing hold hin =>
    exact Or.inl ⟨hin, h.entered_swap hold⟩
  | leaves result existing hold hout =>
    exact Or.inr ⟨hout, rfl, existing, hold⟩

-- =========== invariant

theorem aliased_empty : Aliased (ToolRegistry.empty : ToolRegistry β) := by
  refine ⟨fun name d h => ?_, fun a owner h => ?_⟩
  · cases h
  · cases h

theorem Entered.aliased (h : Aliased reg)
    (hin : Entered reg definition reg') : Aliased reg' := by
  refine ⟨fun name d hd => ?_, fun a owner ha => ?_⟩
  · rw [hin.entries, Dict.get?_insert] at hd
    split at hd
    · next hname =>
      cases hd
      exact hname.symm
    · exact h.named name d hd
  · rw [hin.entries]
    by_cases hmem : a ∈ (settled reg definition).aliases
    · rw [hin.own a hmem] at ha
      cases ha
      exact ⟨_, Dict.get?_insert_self _ _ _, hmem⟩
    · obtain ⟨howner, hne⟩ := (hin.others a hmem owner).1 ha
      rw [Dict.get?_insert_of_ne _ _ hne]
      exact h.listed a owner (get?_of_robbed howner)

theorem Aliased.robbed (h : Aliased reg) (definition : ToolDefinition β) :
    Aliased (robbed reg definition) :=
  ⟨h.named, fun a owner ha => h.listed a owner (get?_of_robbed ha)⟩

theorem Aliased.register (h : Aliased reg) (definition : ToolDefinition β) :
    Aliased (reg.register definition).2 := by
  rcases register_cases h definition with ⟨-, hin⟩ | ⟨-, hout, -⟩
  · exact hin.aliased h
  · rw [hout]
    exact h.robbed definition

theorem Aliased.remove (h : Aliased reg) (name : String) :
    Aliased (reg.remove name) := by
  unfold ToolRegistry.remove
  cases hentry : reg.entries.get? name with
  | none => exact h
  | some definition =>
    have hname := h.named name definition hentry
    refine ⟨fun n d hd => ?_, fun a owner ha => ?_⟩
    · rw [Dict.get?_erase] at hd
      split at hd
      · cases hd
      · exact h.named n d hd
    · dsimp only at ha ⊢
      rw [get?_onRemove, hname] at ha
      split at ha
      · cases ha
      · next hstays =>
        obtain ⟨d, hd, hmem⟩ := h.listed a owner ha
        have hne : owner ≠ name := by
          intro heq
          rw [heq] at hd ha
          rw [hentry] at hd
          cases hd
          exact hstays ⟨hmem, ha⟩
        exact ⟨d, (Dict.get?_erase_of_ne _ hne).trans hd, hmem⟩

theorem Aliased.step (h : Aliased reg)
    (hstep : registryStep reg call = some reg') : Aliased reg' := by
  cases call with
  | register definition =>
    cases hstep
    exact h.register definition
  | remove name =>
    cases hstep
    exact h.remove name

-- ==== courteous registrations

theorem get_eq_some_of_no_entry (h : reg.entries.get? name = none) :
    reg.get name = some d
      ↔ ∃ owner, reg.aliases.get? name = some owner
        ∧ reg.entries.get? owner = some d := by
  rw [get_of_no_entry h]
  exact Option.bind_eq_some_iff

/-- Where a tool lists an alias that resolves, no tool has it as its name,
unless it is the tool itself. -/
theorem Resolves.entry_of_listed (h : Resolves reg) {e : ToolDefinition β}
    (hd : d ∈ reg.definitions) (ha : a ∈ d.aliases)
    (he : reg.entries.get? a = some e) : e = d := by
  have hget := h d hd a ha
  rw [get_of_entry he] at hget
  exact Option.some.inj hget

theorem get_robbed_of_courteous
    (hc : ∀ a ∈ definition.aliases, ¬ Takeover reg definition a)
    (name : String) : (robbed reg definition).get name = reg.get name := by
  unfold ToolRegistry.get
  rw [robbed_entries, get?_robbed_of_courteous hc]

theorem Entered.resolves (h : Aliased reg) (hres : Resolves reg)
    (hc : Courteous reg (.register definition))
    (hin : Entered reg definition reg') : Resolves reg' := by
  obtain ⟨hfree, hnew⟩ := hc
  intro d hd a ha
  obtain ⟨name, hname⟩ := mem_definitions.1 hd
  rw [hin.entries, Dict.get?_insert] at hname
  split at hname
  · -- the new definition: what it keeps was free
    cases hname
    obtain ⟨hmem, hkept⟩ := mem_settled_aliases.1 ha
    rcases hkept with htake | ⟨-, hne, -, hentry⟩
    · exact absurd htake (hfree a hmem)
    · refine (get_eq_some_of_no_entry ?_).2
        ⟨_, hin.own a ha, ?_⟩
      · rw [hin.entries, Dict.get?_insert_of_ne _ _ hne]
        exact hentry
      · rw [hin.entries]
        exact Dict.get?_insert_self _ _ _
  · next hother =>
    have hmem : d ∈ reg.definitions := mem_definitions.2 ⟨name, hname⟩
    have hdname := h.named name d hname
    cases hentry : reg.entries.get? a with
    | some e =>
      have heq := hres.entry_of_listed hmem ha hentry
      rw [heq] at hentry
      have hane : a ≠ definition.name := by
        rw [← h.named a d hentry, hdname]
        exact hother
      refine get_of_entry ?_
      rw [hin.entries, Dict.get?_insert_of_ne _ _ hane]
      exact hentry
    | none =>
      obtain ⟨owner, howner, hd'⟩ :=
        (get_eq_some_of_no_entry hentry).1 (hres d hmem a ha)
      have hon : owner = name := (h.named owner d hd').symm.trans hdname
      rw [hon] at howner
      have hane : a ≠ definition.name := by
        intro heq
        rw [heq] at hentry howner
        rw [hnew hentry] at howner
        cases howner
      have hnot : a ∉ (settled reg definition).aliases := by
        intro hin'
        obtain ⟨hmem', hkept⟩ := mem_settled_aliases.1 hin'
        rcases hkept with htake | ⟨-, -, hfree', -⟩
        · exact hfree a hmem' htake
        · rw [howner] at hfree'
          rcases hfree' with hf | hf
          · cases hf
          · exact hother (Option.some.inj hf)
      refine (get_eq_some_of_no_entry ?_).2 ⟨name, ?_, ?_⟩
      · rw [hin.entries, Dict.get?_insert_of_ne _ _ hane]
        exact hentry
      · refine (hin.others a hnot name).2 ⟨?_, hother⟩
        exact (get?_robbed_of_courteous hfree a).trans howner
      · rw [hin.entries, Dict.get?_insert_of_ne _ _ hother]
        exact hname

theorem Resolves.register (hres : Resolves reg) (h : Aliased reg)
    (hc : Courteous reg (.register definition)) :
    Resolves (reg.register definition).2 := by
  rcases register_cases h definition with ⟨-, hin⟩ | ⟨-, hout, -⟩
  · exact hin.resolves h hres hc
  · intro d hd a ha
    rw [hout] at hd ⊢
    rw [get_robbed_of_courteous hc.1]
    exact hres d hd a ha

theorem quiet_of_courteous (h : Aliased reg) (hc : Courteous reg call) :
    Quiet reg call := by
  cases call with
  | remove name => trivial
  | register definition =>
    intro hleft name
    rcases register_cases h definition with ⟨hin, -⟩ | ⟨-, hout, -⟩
    · rw [hin] at hleft
      cases hleft
    · rw [hout]
      exact get_robbed_of_courteous hc.1 name

theorem Resolves.remove (hres : Resolves reg) (h : Aliased reg)
    (name : String) : Resolves (reg.remove name) := by
  unfold ToolRegistry.remove
  cases hentry : reg.entries.get? name with
  | none => exact hres
  | some definition =>
    have hname := h.named name definition hentry
    intro d hd a ha
    obtain ⟨n, hn⟩ := mem_definitions.1 hd
    dsimp only at hn
    rw [Dict.get?_erase] at hn
    split at hn
    · cases hn
    · next hne =>
      have hmem : d ∈ reg.definitions := mem_definitions.2 ⟨n, hn⟩
      have hdn := h.named n d hn
      cases he : reg.entries.get? a with
      | some e =>
        have heq := hres.entry_of_listed hmem ha he
        rw [heq] at he
        have hane : a ≠ name := by
          rw [← h.named a d he, hdn]
          exact hne
        exact get_of_entry ((Dict.get?_erase_of_ne _ hane).trans he)
      | none =>
        obtain ⟨owner, howner, hd'⟩ :=
          (get_eq_some_of_no_entry he).1 (hres d hmem a ha)
        have hon : owner = n := (h.named owner d hd').symm.trans hdn
        rw [hon] at howner
        refine (get_eq_some_of_no_entry ?_).2 ⟨n, ?_, ?_⟩
        · rw [Dict.get?_erase, he]
          simp
        · rw [get?_onRemove, hname, howner, if_neg]
          exact fun hgone => hne (Option.some.inj hgone.2)
        · exact (Dict.get?_erase_of_ne _ hne).trans hn

-- ==== discourteous registrations

theorem Aliased.of_takeover (h : Aliased reg)
    (ht : Takeover reg definition a) :
    ∃ existing, existing ∈ reg.definitions ∧ a ∈ existing.aliases
      ∧ existing.name ≠ definition.name ∧ a ≠ existing.name := by
  obtain ⟨-, -, owner, hdisplaced⟩ := ht
  obtain ⟨howner, hother, existing, hexisting, hne⟩ :=
    displaced_eq_some hdisplaced
  obtain ⟨d, hd, hmem⟩ := h.listed a owner howner
  rw [hexisting] at hd
  cases hd
  refine ⟨existing, mem_definitions.2 ⟨owner, hexisting⟩, hmem, ?_, hne⟩
  rw [h.named owner existing hexisting]
  exact hother

theorem not_resolves_of_get {e : ToolDefinition β} (hd : d ∈ reg.definitions)
    (ha : a ∈ d.aliases) (hget : reg.get a = some e) (hne : d.name ≠ e.name) :
    ¬ Resolves reg := by
  intro hres
  have heq := hres d hd a ha
  rw [hget] at heq
  cases heq
  exact hne rfl

theorem Entered.get_name (hin : Entered reg definition reg') :
    reg'.get definition.name = some (settled reg definition) := by
  refine get_of_entry ?_
  rw [hin.entries]
  exact Dict.get?_insert_self _ _ _

theorem Entered.mem_of_ne (h : Aliased reg)
    (hin : Entered reg definition reg') (hd : d ∈ reg.definitions)
    (hne : d.name ≠ definition.name) : d ∈ reg'.definitions := by
  refine mem_definitions.2 ⟨d.name, ?_⟩
  rw [hin.entries, Dict.get?_insert_of_ne _ _ hne]
  exact h.get?_name hd

/-- A registration that takes an alias breaks the law one way or the
other: it is left out and the alias is gone, or it enters and the alias
leads away from the tool that lists it. -/
theorem broken_of_takeover (h : Aliased reg) (hres : Resolves reg)
    (ha : a ∈ definition.aliases) (ht : Takeover reg definition a) :
    ¬ (Resolves (reg.register definition).2
      ∧ Quiet reg (.register definition)) := by
  obtain ⟨existing, hmem, hlist, hne, hname⟩ := h.of_takeover ht
  have hentry : reg.entries.get? a = none := by
    cases he : reg.entries.get? a with
    | none => rfl
    | some e =>
      have heq := hres.entry_of_listed hmem hlist he
      rw [heq] at he
      exact absurd (h.named a existing he).symm hname
  intro ⟨hres', hquiet⟩
  rcases register_cases h definition with ⟨-, hin⟩ | ⟨hleft, hout, -⟩
  · have hkeeps : a ∈ (settled reg definition).aliases :=
      mem_settled_aliases.2 ⟨ha, Or.inl ht⟩
    have hget : (reg.register definition).2.get a
        = some (settled reg definition) := by
      refine (get_eq_some_of_no_entry ?_).2 ⟨_, hin.own a hkeeps, ?_⟩
      · rw [hin.entries, Dict.get?_insert_of_ne _ _ ht.2.1]
        exact hentry
      · rw [hin.entries]
        exact Dict.get?_insert_self _ _ _
    exact not_resolves_of_get (hin.mem_of_ne h hmem hne) hlist hget hne
      hres'
  · have hgone : (robbed reg definition).get a = none := by
      have hlookup : (robbed reg definition).get a
          = (robbed reg definition).aliases.get? a >>= reg.entries.get? :=
        get_of_no_entry hentry
      rw [hlookup, get?_robbed_of_taken ha ht]
      rfl
    have hsame := hquiet hleft a
    rw [hout, hgone, hres existing hmem a hlist] at hsame
    cases hsame

/-- A new tool under another one's alias is found where the other one
should be. -/
theorem broken_of_alias_name (h : Aliased reg)
    (hnew : reg.entries.get? definition.name = none)
    (halias : reg.aliases.get? definition.name ≠ none) :
    ¬ Resolves (reg.register definition).2 := by
  obtain ⟨owner, howner⟩ := Option.ne_none_iff_exists'.1 halias
  obtain ⟨d, hd, hlist⟩ := h.listed _ owner howner
  have hmem : d ∈ reg.definitions := mem_definitions.2 ⟨owner, hd⟩
  have hne : d.name ≠ definition.name := by
    intro heq
    have hd' := h.get?_name hmem
    rw [heq, hnew] at hd'
    cases hd'
  rcases register_cases h definition with ⟨-, hin⟩ | ⟨-, -, existing, hold⟩
  · exact not_resolves_of_get (hin.mem_of_ne h hmem hne) hlist hin.get_name
      hne
  · rw [hnew] at hold
    cases hold

-- ================ runs

theorem resolves_step_iff (h : Aliased reg) (hres : Resolves reg)
    (hstep : registryStep reg call = some reg') :
    (Resolves reg' ∧ Quiet reg call) ↔ Courteous reg call := by
  cases call with
  | remove name =>
    cases hstep
    exact iff_of_true ⟨hres.remove h name, trivial⟩ trivial
  | register definition =>
    cases hstep
    refine ⟨fun hkeeps => ⟨fun a ha ht => ?_, fun hnew => ?_⟩,
      fun hc => ⟨hres.register h hc, quiet_of_courteous h hc⟩⟩
    · exact broken_of_takeover h hres ha ht hkeeps
    · by_contra halias
      exact broken_of_alias_name h hnew halias hkeeps.1

/-- The law of the registry, over a sequence of calls: the table is right
about every alias, every listed alias resolves to the tool that lists it,
no name is matched by two tools, and what is left out changes no
lookup. -/
def Lawful (calls : List (RegistryCall β)) : Prop :=
  (∀ reg, (registrySystem β).Visits ToolRegistry.empty calls reg →
    Aliased reg ∧ Resolves reg ∧ Unambiguous reg)
  ∧ ∀ reg call reg',
    (registrySystem β).Takes ToolRegistry.empty calls reg call reg' →
    Quiet reg call

theorem resolves_empty : Resolves (ToolRegistry.empty : ToolRegistry β) := by
  intro d hd
  obtain ⟨name, hname⟩ := mem_definitions.1 hd
  cases hname

theorem aliased_visits {calls : List (RegistryCall β)}
    (h : (registrySystem β).Visits ToolRegistry.empty calls reg) :
    Aliased reg :=
  System.visits_invariant (fun _ _ _ hs hstep => hs.step hstep)
    aliased_empty h

/-- The law holds of a sequence of calls exactly when each of them is
courteous. -/
theorem lawful_iff (calls : List (RegistryCall β)) :
    Lawful calls
      ↔ ∀ reg call reg',
        (registrySystem β).Takes ToolRegistry.empty calls reg call reg' →
        Courteous reg call := by
  have hkeeps : ∀ (reg : ToolRegistry β) (call : RegistryCall β) reg',
      Aliased reg ∧ Resolves reg → registryStep reg call = some reg' →
      Courteous reg call → Aliased reg' ∧ Resolves reg' := by
    intro reg call reg' ⟨h, hres⟩ hstep hc
    exact ⟨h.step hstep, ((resolves_step_iff h hres hstep).2 hc).1⟩
  have hiff : ∀ (reg : ToolRegistry β) (call : RegistryCall β) reg',
      Aliased reg ∧ Resolves reg → registryStep reg call = some reg' →
      ((∀ t, registryStep reg call = some t →
          Resolves t ∧ Quiet reg call) ↔ Courteous reg call) := by
    intro reg call reg' ⟨h, hres⟩ hstep
    rw [← resolves_step_iff h hres hstep]
    refine ⟨fun hall => hall reg' hstep, fun hkeeps t ht => ?_⟩
    rw [hstep] at ht
    cases ht
    exact hkeeps
  refine ⟨fun ⟨hstates, hquiet⟩ => ?_, fun hall => ⟨fun reg hv => ?_,
    fun reg call reg' htake => ?_⟩⟩
  · refine (System.takes_iff_takes (M := registrySystem β) hkeeps hiff
      ⟨aliased_empty, resolves_empty⟩).1 fun reg call reg' htake t ht => ?_
    have hstep : registryStep reg call = some reg' := by
      obtain ⟨-, -, -, -, hstep⟩ := htake
      exact hstep
    rw [hstep] at ht
    cases ht
    exact ⟨(hstates reg' htake.visits.2).2.1, hquiet reg call reg' htake⟩
  · obtain ⟨h, hres⟩ := System.invariant_of_takes hkeeps
      ⟨aliased_empty, resolves_empty⟩ hall hv
    exact ⟨h, hres, unambiguous_of_resolves h hres⟩
  · exact quiet_of_courteous (aliased_visits htake.visits.1)
      (hall reg call reg' htake)

/-- However names and aliases clash, a lookup finds a registered tool that
goes by the name, and every registered tool is found under its own name. -/
theorem lookups_sound {calls : List (RegistryCall β)}
    (h : (registrySystem β).Visits ToolRegistry.empty calls reg) :
    (∀ name d, reg.get name = some d →
        d ∈ reg.definitions ∧ d.matches name = true)
      ∧ ∀ d ∈ reg.definitions, reg.get d.name = some d :=
  ⟨fun _ _ hget => (aliased_visits h).get_matches hget,
    fun _ hd => get_of_entry ((aliased_visits h).get?_name hd)⟩

/-- A user's tool, and a bundled tool that wants the same alias. -/
def read : ToolDefinition Unit :=
  ⟨"read", ["open"], ⟨.user, none⟩, ()⟩

def view : ToolDefinition Unit :=
  ⟨"view", ["open"], ⟨.bundled, none⟩, ()⟩

theorem lookups_sound_shared_alias : ∃ reg d,
    (registrySystem Unit).Visits ToolRegistry.empty
        [.register read, .register view] reg
      ∧ reg.get "open" = some d ∧ d ∈ reg.definitions := by
  have hvisits : (registrySystem Unit).Visits ToolRegistry.empty
      [.register read, .register view] _ := System.Visits.finish rfl
  exact ⟨_, _, hvisits, rfl, ((lookups_sound hvisits).1 "open" _ rfl).1⟩

/-- Both list the alias in the end, and it leads to one of them. -/
theorem not_lawful_of_shared_alias :
    ¬ Lawful [RegistryCall.register read, .register view] := by
  intro h
  have hres := (h.1 _ (System.Visits.finish rfl)).2.1
  have hget := hres read (mem_definitions.2 ⟨"read", by decide⟩)
    "open" (by decide)
  exact absurd hget (by decide)

end WeaveRuntime.Registries
