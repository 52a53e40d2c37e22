/-
The definitions a runtime is assembled from, as far as expansion and
delegation read them: tools, skills and agents, and the scopes and modes
they ask for.
-/
import Mathlib.Data.List.Basic

namespace WeaveRuntime.Definitions

inductive DefinitionSource where
  | bundled
  | user
  | project
  deriving DecidableEq, Repr

inductive PermissionMode where
  | default
  | plan
  | acceptEdits
  | bypassPermissions
  | dontAsk
  | auto
  | bubble
  deriving DecidableEq, Repr

inductive MemoryScope where
  | user
  | project
  | local
  deriving DecidableEq, Repr

inductive IsolationMode where
  | none
  | worktree
  | remote
  deriving DecidableEq, Repr

inductive SkillShell where
  | bash
  | powershell
  deriving DecidableEq, Repr

structure ToolDefinition where
  name : String
  aliases : List String
  deriving DecidableEq, Repr

def ToolDefinition.matches (tool : ToolDefinition) (name : String) : Bool :=
  name == tool.name || tool.aliases.contains name

structure SkillDefinition where
  name : String
  content : List Char
  allowedTools : List String
  shell : Option SkillShell
  source : DefinitionSource
  directory : Option (List Char)
  deriving DecidableEq, Repr

structure AgentDefinition where
  name : String
  tools : List String
  disallowedTools : List String
  permissionMode : Option PermissionMode
  memory : Option MemoryScope
  isolation : Option IsolationMode
  skills : List String
  deriving DecidableEq, Repr

end WeaveRuntime.Definitions
