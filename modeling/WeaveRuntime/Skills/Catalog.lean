/-
The invocation catalog of a turn, for a registry of skills.

A skill may be switched off, may be kept from the model, and may ask for
paths: then it is there only where some path of the context matches one of
its patterns. The context is built anew from the messages at every
iteration (`buildInvocationResolutionContext`); the catalog also asks
whether the skill is in the pool of the execution policy, and the pool is
what the catalog showed at the iteration before.

What the file system and `pathlib` say of a path is `Paths`; the value of
`json.dumps` is a parameter, nothing where it raises.
-/
import WeaveRuntime.Compaction.Manager
import WeaveRuntime.Delegation.Policy
import WeaveRuntime.Python.Fnmatch

namespace WeaveRuntime.Skills

open Definitions
open Delegation (policyAllowsSkill resolveSkillPool)
open Jobs (Fields getField)
open Lib (Dict)
open Messages
open Python

-- ============== skills

/-- A skill with what decides who may see it. -/
structure CatalogSkill extends SkillDefinition where
  paths : List String
  userInvocable : Bool
  disableModelInvocation : Bool

/-- The skills by name, with those that were switched off. -/
structure SkillCatalog where
  entries : Dict String CatalogSkill
  activationOverrides : Dict String Bool
  named : ∀ name skill, entries.get? name = some skill → skill.name = name

def SkillCatalog.isActive (r : SkillCatalog) (name : String) : Bool :=
  (r.activationOverrides.get? name).getD true

def SkillCatalog.resolveActive (r : SkillCatalog) : List CatalogSkill :=
  r.entries.values.filter fun skill => r.isActive skill.name

/-- An entry of the catalog, made from a skill. -/
structure InvocationDefinition where
  skill : CatalogSkill
  activationEnabled : Bool
  userInvocable : Bool
  modelInvocable : Bool
  paths : List String

def SkillCatalog.toInvocation (r : SkillCatalog) (skill : CatalogSkill) :
    InvocationDefinition where
  skill := skill
  activationEnabled := r.isActive skill.name
  userInvocable := skill.userInvocable
  modelInvocable := !skill.disableModelInvocation
  paths := skill.paths

/-- The definitions of the invocation registry: those of the skills, by
name. -/
def SkillCatalog.definitions (r : SkillCatalog) : List InvocationDefinition :=
  (r.entries.values.insertionSort fun a b => a.name ≤ b.name).map
    r.toInvocation

-- =============== paths

/-- `value.strip()`, if anything is left. -/
def normalized (text : String) : List String :=
  if pyStrip text = "" then [] else [pyStrip text]

mutual

def coerceStringSequence : PyVal → List String
  | .none => []
  | .str text => normalized text
  | .dict fields => coercePath fields
  | .list items => coerceStringItems items
  | value => normalized (pyStr value)

def coercePath : List (PyKey × PyVal) → List String
  | [] => []
  | (key, value) :: fields =>
    if key = .str "path" then coerceStringSequence value
    else coercePath fields

def coerceStringItems : List PyVal → List String
  | [] => []
  | .none :: items => coerceStringItems items
  | .dict fields :: items =>
    (if fields.any (·.1 = .str "path") then coercePath fields
      else normalized (pyStr (.dict fields)))
      ++ coerceStringItems items
  | item :: items => normalized (pyStr item) ++ coerceStringItems items

end

/-- `re.split(r"\s+", text)`, without what is empty. -/
def words (text : List Char) : List (List Char) :=
  (text.splitOnP isPySpace).filter fun word => !word.isEmpty

def trailingPathPunctuation : List Char := "\"'`,:;!?)]\x7d>".toList

def leadingPathPunctuation : List Char := "\"'`([<\x7b".toList

/-- `raw.strip(trailing).lstrip(leading)`. -/
def trimPath (raw : List Char) : List Char :=
  ((((raw.dropWhile (trailingPathPunctuation.contains ·)).reverse.dropWhile
    (trailingPathPunctuation.contains ·)).reverse).dropWhile
      (leadingPathPunctuation.contains ·))

/-- `[A-Za-z0-9_.-]`. -/
def isFileChar (c : Char) : Bool :=
  c.isAlphanum || c == '_' || c == '.' || c == '-'

/-- `[A-Za-z0-9_.-]+\.[A-Za-z0-9_.-]+`, of the whole text: a dot that is
neither first nor last. -/
def isFileName (token : List Char) : Bool :=
  token.all isFileChar && (token.drop 1).dropLast.contains '.'

def looksLikePath (token : List Char) : Bool :=
  token.contains '/' || token.head? == some '.' || token.head? == some '~'
    || token.contains '*' || token.contains '?' || token.contains '['
    || isFileName token

/-- A URL. -/
def hasScheme (token : List Char) : Bool :=
  token.tails.any fun rest => ("://".toList).isPrefixOf rest

/-- One word of `_extract_path_tokens`. -/
def pathToken (raw : List Char) : Option String :=
  let token := trimPath raw
  let slashed := token.map fun c => if c = '\\' then '/' else c
  if token.isEmpty || hasScheme token || !looksLikePath slashed then none
  else some (String.ofList slashed)

def extractPathTokens (text : String) : List String :=
  (words text.toList).filterMap pathToken

/-- What the file system says of paths. -/
structure Paths where
  /-- `str(Path(path).resolve())`. -/
  resolve : String → String
  /-- `_path_variants` of a candidate, from a directory and the roots. -/
  variants : String → List String → String → List String

-- ============ contexts

/-- The paths and roots of an iteration. -/
structure InvocationResolutionContext where
  cwd : String
  promptPaths : List String
  attachments : List String
  workspaceRoots : List String
  observedPaths : List String
  workingSet : List String

def isToolResult : ContentBlock → Bool
  | .toolResult _ _ _ => true
  | _ => false

def isToolResultReplay (message : RuntimeMessage) : Bool :=
  if (getField message.metadata "tool_results").truthy then true
  else !message.content.isEmpty && message.content.all isToolResult

def latestPromptMessage (messages : List RuntimeMessage) :
    Option RuntimeMessage :=
  messages.reverse.find? fun message =>
    message.role = .user && !isToolResultReplay message

def sortedSet (texts : List String) : List String :=
  texts.eraseDups.insertionSort (· ≤ ·)

/-- What an iteration has: its messages, the metadata of its contexts and
the paths of the attachments of the prompt context. -/
structure IterationInput where
  cwd : String
  messages : List RuntimeMessage
  metadata : Fields
  attachmentPaths : List String

section Context

variable (paths : Paths) (dumps : Payload → Option String)

def promptTokens : Option RuntimeMessage → Option (List String)
  | none => some []
  | some prompt =>
    (Compaction.messageText dumps prompt).map extractPathTokens

def promptValues (latestPrompt : Option RuntimeMessage) (key : String) :
    List String :=
  latestPrompt.elim [] fun prompt =>
    coerceStringSequence (getField prompt.metadata key)

def contextOf (input : IterationInput)
    (latestPrompt : Option RuntimeMessage) (tokens : List String) :
    InvocationResolutionContext :=
  let cwd := paths.resolve input.cwd
  let contextValues := fun key =>
    coerceStringSequence (getField input.metadata key)
  { cwd := cwd
    promptPaths := sortedSet (contextValues "prompt_paths"
      ++ promptValues latestPrompt "prompt_paths" ++ tokens)
    attachments := sortedSet (contextValues "attachments"
      ++ promptValues latestPrompt "attachments"
      ++ (input.attachmentPaths ++ latestPrompt.elim [] fun prompt =>
        prompt.attachments.map (·.path)).filter (· ≠ ""))
    workspaceRoots := sortedSet (cwd :: (contextValues "workspace_roots"
      ++ promptValues latestPrompt "workspace_roots").map paths.resolve)
    observedPaths := sortedSet (contextValues "observed_paths"
      ++ input.messages.flatMap fun message =>
        coerceStringSequence (getField message.metadata "observed_paths"))
    workingSet := sortedSet (contextValues "working_set"
      ++ contextValues "working_set_paths"
      ++ promptValues latestPrompt "working_set"
      ++ promptValues latestPrompt "working_set_paths") }

def buildInvocationResolutionContext (input : IterationInput) :
    Option InvocationResolutionContext :=
  let latestPrompt := latestPromptMessage input.messages
  (promptTokens dumps latestPrompt).map
    (contextOf paths input latestPrompt)

end Context

-- ============= catalog

inductive InvocationPathMatchState where
  | matched | notMatched | indeterminate
  deriving DecidableEq, Repr

inductive InvocationHiddenReason where
  | inactive | pathMismatch | pathIndeterminate | policyNarrowed
  deriving DecidableEq, Repr

/-- What the catalog says of an entry. -/
structure ResolvedInvocation where
  definition : InvocationDefinition
  visible : Bool
  userInvocable : Bool
  modelInvocable : Bool
  hiddenReason : Option InvocationHiddenReason
  matchedPaths : List String
  pathMatchState : InvocationPathMatchState

section Catalog

variable (paths : Paths)

def matchesPathPatterns (patterns : List String) (candidate : String)
    (context : InvocationResolutionContext) : Bool :=
  (paths.variants context.cwd context.workspaceRoots candidate).any
    fun variant => patterns.any fun pattern => fnmatch variant pattern

def InvocationResolutionContext.explicitPaths
    (context : InvocationResolutionContext) : List String :=
  (context.promptPaths ++ context.attachments ++ context.observedPaths
    ++ context.workingSet).eraseDups

def evaluatePathState (patterns : List String)
    (context : InvocationResolutionContext) :
    InvocationPathMatchState × List String :=
  if patterns.isEmpty then (.matched, [])
  else
    let matched := context.explicitPaths.filter fun candidate =>
      matchesPathPatterns paths patterns candidate context
    if !matched.isEmpty then (.matched, matched)
    else if !context.explicitPaths.isEmpty then (.notMatched, [])
    else (.indeterminate, [])

def hiddenReasonOf (activationEnabled : Bool)
    (pathState : InvocationPathMatchState) (policyVisible : Bool) :
    Option InvocationHiddenReason :=
  if !activationEnabled then some .inactive
  else if pathState = .notMatched then some .pathMismatch
  else if pathState = .indeterminate then some .pathIndeterminate
  else if !policyVisible then some .policyNarrowed
  else none

/-- `_policy_visibility`, with the pool of the policy state in the
context's metadata, if one is there. -/
def policyVisibility (definition : InvocationDefinition)
    (skillPool : Option (List SkillDefinition)) : Bool :=
  match skillPool with
  | none => true
  | some pool => policyAllowsSkill definition.skill.name pool

/-- One entry of `resolve_invocation_catalog`. -/
def resolveInvocation (context : InvocationResolutionContext)
    (skillPool : Option (List SkillDefinition))
    (definition : InvocationDefinition) : ResolvedInvocation :=
  let pathState := evaluatePathState paths definition.paths context
  let policyVisible := policyVisibility definition skillPool
  let visible := definition.activationEnabled && pathState.1 = .matched
    && policyVisible
  { definition := definition
    visible := visible
    userInvocable := visible && definition.userInvocable
    modelInvocable := visible && definition.modelInvocable
    hiddenReason := hiddenReasonOf definition.activationEnabled pathState.1
      policyVisible
    matchedPaths := sortedSet pathState.2
    pathMatchState := pathState.1 }

structure ResolvedInvocationCatalog where
  visible : List ResolvedInvocation
  hidden : List ResolvedInvocation

def resolveInvocationCatalog (entries : List InvocationDefinition)
    (context : InvocationResolutionContext)
    (skillPool : Option (List SkillDefinition)) :
    ResolvedInvocationCatalog :=
  let resolved := entries.map (resolveInvocation paths context skillPool)
  { visible := resolved.filter (·.visible)
    hidden := resolved.filter fun entry => !entry.visible }

def ResolvedInvocationCatalog.visibleSkillDefinitions
    (catalog : ResolvedInvocationCatalog)
    (userInvocable modelInvocable : Option Bool) : List SkillDefinition :=
  (catalog.visible.filter fun entry =>
    userInvocable.all (entry.userInvocable = ·)
      && modelInvocable.all (entry.modelInvocable = ·)).map
    (·.definition.skill.toSkillDefinition)

-- ======= the turn loop

def resolveIterationSkillPool (catalog : ResolvedInvocationCatalog)
    (agent : AgentDefinition) (skillPool : List SkillDefinition)
    (localRootPolicy : Bool) : List SkillDefinition :=
  let visible := catalog.visibleSkillDefinitions none (some true)
  if localRootPolicy then resolveSkillPool visible agent.skills
  else skillPool.filter fun skill => policyAllowsSkill skill.name visible

variable (registry : SkillCatalog) (agent : AgentDefinition)

/-- The skill pool of an iteration of a turn with a root policy of its own,
whose policy had this pool before. -/
def iterationSkillPool (skillPool : List SkillDefinition)
    (context : InvocationResolutionContext) : List SkillDefinition :=
  resolveIterationSkillPool
    (resolveInvocationCatalog paths registry.definitions context
      (some skillPool)) agent skillPool true

/-- The pools of the iterations, one after the other. A tool call in
between leaves the pool alone. -/
def iterationSkillPools (skillPool : List SkillDefinition) :
    List InvocationResolutionContext → List (List SkillDefinition)
  | [] => []
  | context :: contexts =>
    let next := iterationSkillPool paths registry agent skillPool context
    next :: iterationSkillPools next contexts

/-- The pool of the root policy a turn builds. -/
def rootSkillPool : List SkillDefinition :=
  resolveSkillPool (registry.resolveActive.map (·.toSkillDefinition))
    agent.skills

/-- The pools a turn offers to the model. -/
def turnSkillPools (contexts : List InvocationResolutionContext) :
    List (List SkillDefinition) :=
  iterationSkillPools paths registry agent (rootSkillPool registry agent)
    contexts

end Catalog

end WeaveRuntime.Skills
