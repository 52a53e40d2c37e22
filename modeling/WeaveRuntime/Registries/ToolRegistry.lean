/-
The tool registry (registries/base.py and registries/tool_registry.py):
definitions under their names, and a table from aliases to the names of
the tools that own them.

An alias lives in two places, in the definition that lists it and in the
table, and only the table decides what a lookup of it finds. A new
definition first has its aliases sorted out against the table
(`prepareDefinition`): an alias of a tool of higher or equal priority is
dropped, an alias of a tool of lower priority is taken out of the table.
Only then is it decided whether the definition is registered at all.

Of a definition the registry reads its name, its aliases and where it
comes from; everything else is one field the registry never looks at.
-/
import WeaveRuntime.Definitions
import WeaveRuntime.Lib.Dict
import WeaveRuntime.Lib.System

namespace WeaveRuntime.Registries

open Lib
open Definitions (DefinitionSource)

-- ========= definitions

def sourceValue : DefinitionSource → String
  | .bundled => "bundled"
  | .user => "user"
  | .project => "project"

def sourcePriority : DefinitionSource → Nat
  | .project => 100
  | .user => 200
  | .bundled => 300

structure DefinitionOrigin where
  source : DefinitionSource
  path : Option String
  deriving DecidableEq, Repr

def DefinitionOrigin.priority (origin : DefinitionOrigin) : Nat :=
  sourcePriority origin.source

def DefinitionOrigin.label (origin : DefinitionOrigin) : String :=
  origin.path.getD (sourceValue origin.source)

/-- A tool; `body` is what the registry does not read. -/
structure ToolDefinition (β : Type) where
  name : String
  aliases : List String
  origin : DefinitionOrigin
  body : β
  deriving DecidableEq, Repr

variable {β : Type}

def ToolDefinition.matches (tool : ToolDefinition β) (name : String) :
    Bool :=
  name == tool.name || tool.aliases.contains name

theorem matches_iff {tool : ToolDefinition β} {name : String} :
    tool.matches name = true ↔ name = tool.name ∨ name ∈ tool.aliases := by
  simp [ToolDefinition.matches]

structure Diagnostic where
  code : String
  message : String
  source : String
  location : String
  deriving DecidableEq, Repr

structure ToolRegistry (β : Type) where
  entries : Dict String (ToolDefinition β)
  aliases : Dict String String

def ToolRegistry.empty : ToolRegistry β := ⟨Dict.empty, Dict.empty⟩

-- ========= preparation

/-- Where the loop over the aliases of a definition stands: the table,
the aliases it keeps so far, and what it reported. -/
structure Preparation where
  table : Dict String String
  filteredAliases : List String
  diagnostics : List Diagnostic

def aliasReplaced (definition : ToolDefinition β) (aliasName owner : String) :
    Diagnostic where
  code := "tool_alias_replaced"
  message := "Alias '" ++ aliasName ++ "' now resolves to tool '"
    ++ definition.name ++ "' instead of '" ++ owner
    ++ "' due to higher source priority."
  source := sourceValue definition.origin.source
  location := definition.origin.label

def aliasDropped (definition : ToolDefinition β) (aliasName owner : String) :
    Diagnostic where
  code := "tool_alias_dropped"
  message := "Dropped alias '" ++ aliasName ++ "' from tool '"
    ++ definition.name ++ "' because it conflicts with '" ++ owner ++ "'."
  source := sourceValue definition.origin.source
  location := definition.origin.label

def aliasNameConflict (definition : ToolDefinition β) (aliasName : String) :
    Diagnostic where
  code := "tool_alias_name_conflict"
  message := "Dropped alias '" ++ aliasName ++ "' from tool '"
    ++ definition.name
    ++ "' because it conflicts with an existing tool name."
  source := sourceValue definition.origin.source
  location := definition.origin.label

namespace Preparation

def report (p : Preparation) (d : Diagnostic) : Preparation :=
  { p with diagnostics := p.diagnostics ++ [d] }

def keep (p : Preparation) (aliasName : String) : Preparation :=
  { p with filteredAliases := p.filteredAliases ++ [aliasName] }

end Preparation

/-- The tool the alias is taken from: another tool owns it, and the
definition has a higher priority. -/
def displaced (entries : Dict String (ToolDefinition β))
    (table : Dict String String) (definition : ToolDefinition β)
    (aliasName : String) : Option String := do
  let owner ← table.get? aliasName
  let existing ← entries.get? owner
  if owner ≠ definition.name
      ∧ existing.origin.priority < definition.origin.priority
      ∧ aliasName ≠ existing.name then
    some owner
  else
    none

/-- One turn of the loop of `_prepare_definition`. -/
def prepareAlias (entries : Dict String (ToolDefinition β))
    (definition : ToolDefinition β) (p : Preparation) (aliasName : String) :
    Preparation :=
  if aliasName = "" ∨ aliasName = definition.name
      ∨ aliasName ∈ p.filteredAliases then
    p
  else
    match p.table.get? aliasName with
    | some owner =>
      if owner ≠ definition.name then
        match displaced entries p.table definition aliasName with
        | some owner =>
          { (p.report
              (aliasReplaced definition aliasName owner)).keep aliasName
            with table := p.table.erase aliasName }
        | none => p.report (aliasDropped definition aliasName owner)
      else if entries.contains aliasName then
        p.report (aliasNameConflict definition aliasName)
      else
        p.keep aliasName
    | none =>
      if entries.contains aliasName then
        p.report (aliasNameConflict definition aliasName)
      else
        p.keep aliasName

def prepareAliases (reg : ToolRegistry β) (definition : ToolDefinition β) :
    Preparation :=
  definition.aliases.foldl (prepareAlias reg.entries definition)
    ⟨reg.aliases, [], []⟩

/-- `_prepare_definition`: the definition with the aliases it keeps. The
table has lost the aliases that were taken from other tools. -/
def prepareDefinition (reg : ToolRegistry β)
    (definition : ToolDefinition β) :
    ToolDefinition β × List Diagnostic × ToolRegistry β :=
  let p := prepareAliases reg definition
  ({ definition with aliases := p.filteredAliases }, p.diagnostics,
    { reg with aliases := p.table })

-- ======== registration

def onAdd (table : Dict String String) (definition : ToolDefinition β) :
    Dict String String :=
  definition.aliases.foldl
    (fun table aliasName => table.insert aliasName definition.name) table

def onRemove (table : Dict String String) (definition : ToolDefinition β) :
    Dict String String :=
  definition.aliases.foldl
    (fun table aliasName =>
      if table.get? aliasName = some definition.name then table.erase aliasName
      else table)
    table

inductive RegistrationAction where
  | registered
  | replaced
  | skipped
  deriving DecidableEq, Repr

structure RegistryRegistration (β : Type) where
  action : RegistrationAction
  entry : ToolDefinition β
  replaced : Option (ToolDefinition β)
  diagnostics : List Diagnostic
  deriving DecidableEq, Repr

structure RegistryConflictError where
  message : String
  current : String
  incoming : String
  deriving DecidableEq, Repr

def definitionShadowed (definition existing : ToolDefinition β) :
    Diagnostic where
  code := "definition_shadowed"
  message := "tool '" ++ definition.name ++ "' from "
    ++ sourceValue definition.origin.source
    ++ " overrides the lower-priority definition from "
    ++ sourceValue existing.origin.source ++ "."
  source := sourceValue definition.origin.source
  location := definition.origin.label

def definitionSkipped (definition : ToolDefinition β) : Diagnostic where
  code := "definition_skipped"
  message := "Skipped tool '" ++ definition.name ++ "' from "
    ++ sourceValue definition.origin.source
    ++ " because a higher-priority definition already exists."
  source := sourceValue definition.origin.source
  location := definition.origin.label

namespace ToolRegistry

variable (reg : ToolRegistry β)

/-- The definition enters the registry. -/
def add (definition : ToolDefinition β) : ToolRegistry β where
  entries := reg.entries.insert definition.name definition
  aliases := onAdd reg.aliases definition

/-- The definition takes the place of one of the same name. -/
def swap (existing definition : ToolDefinition β) : ToolRegistry β where
  entries := reg.entries.insert definition.name definition
  aliases := onAdd (onRemove reg.aliases existing) definition

/-- What `register` does with a prepared definition. -/
def enter (definition : ToolDefinition β) (diagnostics : List Diagnostic) :
    Except RegistryConflictError (RegistryRegistration β)
      × ToolRegistry β :=
  match reg.entries.get? definition.name with
  | none =>
    (.ok ⟨.registered, definition, none, diagnostics⟩, reg.add definition)
  | some existing =>
    if existing.origin.priority < definition.origin.priority then
      (.ok ⟨.replaced, definition, some existing,
          diagnostics ++ [definitionShadowed definition existing]⟩,
        reg.swap existing definition)
    else if definition.origin.priority < existing.origin.priority then
      (.ok ⟨.skipped, existing, none,
          diagnostics ++ [definitionSkipped definition]⟩, reg)
    else if definition.origin.source ≠ existing.origin.source then
      (.error ⟨"Conflicting tool definitions for '" ++ definition.name
          ++ "'", existing.origin.label, definition.origin.label⟩, reg)
    else if definition.origin.path ≠ existing.origin.path then
      (.error ⟨"Duplicate tool definitions for '" ++ definition.name
          ++ "' from the same source", existing.origin.label,
          definition.origin.label⟩, reg)
    else
      (.ok ⟨.replaced, definition, some existing, diagnostics⟩,
        reg.swap existing definition)

def register (definition : ToolDefinition β) :
    Except RegistryConflictError (RegistryRegistration β)
      × ToolRegistry β :=
  let (definition, diagnostics, reg) := prepareDefinition reg definition
  reg.enter definition diagnostics

def remove (name : String) : ToolRegistry β :=
  match reg.entries.get? name with
  | none => reg
  | some definition =>
    ⟨reg.entries.erase name, onRemove reg.aliases definition⟩

def get (name : String) : Option (ToolDefinition β) :=
  match reg.entries.get? name with
  | some definition => some definition
  | none => reg.aliases.get? name >>= reg.entries.get?

def definitions : List (ToolDefinition β) := reg.entries.values

end ToolRegistry

-- ================ runs

inductive RegistryCall (β : Type) where
  | register (definition : ToolDefinition β)
  | remove (name : String)

def registryStep (reg : ToolRegistry β) :
    RegistryCall β → Option (ToolRegistry β)
  | .register definition => some (reg.register definition).2
  | .remove name => some (reg.remove name)

def registrySystem (β : Type) :
    System (ToolRegistry β) (RegistryCall β) :=
  ⟨registryStep⟩

end WeaveRuntime.Registries
