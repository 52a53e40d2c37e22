/-
Memory files: frontmatter, body, and the metadata a file is taken to
have.

The frontmatter is YAML typed by hand, so a field holds any value. What
is wrong with one is an error of the artifact, and the file is left out;
what the checks themselves trip over is raised, and there are four such
values: an agent namespace that is a list or a mapping, a value that has
no text, a datetime that has no UTC text, and an integer that no float is
near to. The loader raises a `ValueError` of its own for a date of no
calendar, and the handler of the loader's errors lets it pass.

A date and a datetime are objects known by their text.
-/
import WeaveRuntime.Compaction.Manager
import WeaveRuntime.Jobs.Model
import WeaveRuntime.Lib.Raise
import WeaveRuntime.Memory.SessionArtifacts
import WeaveRuntime.Skills.Expansion

namespace WeaveRuntime.Memory.Documents

open Compaction (pyJoin splitWords)
open Definitions (MemoryScope)
open Jobs (Fields getField setField)
open Lib
open Memory (scopeValue)
open Python
open Skills (splitlines)

-- ======== the platform

inductive Raised where
  | valueError
  | typeError
  | overflowError
  deriving DecidableEq

inductive YamlFailure where
  | yamlError (message : String)
  | valueError

inductive JsonFailure where
  | decodeError
  | valueError

/-- A datetime, as it is compared with the time of the call. -/
structure Stamp where
  aware : Bool
  past : Bool

/-- What the store takes from PyYAML, the interpreter and the clock. -/
structure Platform where
  safeLoad : String → Except YamlFailure PyVal
  safeDump : Fields → String
  /-- `datetime.fromisoformat`; `none` where it raises `ValueError` -/
  fromisoformat : String → Option Stamp
  /-- the text of a datetime in UTC; `none` of any other object -/
  utcText : String → Option (Except Raised String)
  /-- `str(value)` -/
  str : PyVal → Except Raised String
  loads : String → Except JsonFailure PyVal
  /-- the text of `float(n)` -/
  float : Int → String
  lower : String → String
  sha1 : String → String
  now : String
  timestamp : String
  fileTimestamp : List String → String

-- =========== coercions

/-- The text of a string that is not blank, without its blank ends. -/
def givenText : PyVal → Option String
  | .str text => if pyStrip text = "" then none else some (pyStrip text)
  | _ => none

def coerceRequiredString (p : Platform) (value : PyVal) (field : String) :
    Except Raised (String × List String) :=
  let error := s!"Missing or invalid '{field}' field"
  match givenText value with
  | some text => .ok (text, [])
  | none =>
    match value with
    | .none => .ok ("", [error])
    | .str text => .ok (pyStrip text, [error])
    | value => do
      let text ← p.str value
      return (pyStrip text, [error])

def coerceStringList (value : PyVal) (field : String) :
    List String × List String :=
  match value with
  | .none => ([], [])
  | .str text => ((givenText (.str text)).toList, [])
  | .list items =>
    (items.filterMap givenText,
      (items.filter fun item => (givenText item).isNone).map fun _ =>
        s!"Invalid '{field}' list item")
  | _ => ([], [s!"Invalid '{field}' field"])

def withOffset (candidate : String) : String :=
  String.ofList (candidate.toList.flatMap fun c =>
    if c = 'Z' then "+00:00".toList else [c])

def coerceTimestamp (p : Platform) (value : PyVal) (field : String) :
    Except Raised (String × List String) :=
  let missing := (p.now, [s!"Missing or invalid '{field}' field"])
  match value with
  | .other text =>
    match p.utcText text with
    | some utc => utc.map fun text => (text, [])
    | none => .ok missing
  | value =>
    match givenText value with
    | some candidate =>
      match p.fromisoformat (withOffset candidate) with
      | some _ => .ok (candidate, [])
      | none => .ok (candidate, [s!"Invalid '{field}' timestamp"])
    | none => .ok missing

def optionalText (raw : Fields) (field : String) :
    Option String × List String :=
  match getField raw field with
  | .none => (none, [])
  | value =>
    match givenText value with
    | some text => (some text, [])
    | none => (none, [s!"Invalid '{field}' field"])

def optionalList (raw : Fields) (field : String) :
    Option (List String) × List String :=
  match getField raw field with
  | .none => (none, [])
  | value =>
    let (items, errors) := coerceStringList value field
    (some items, errors)

-- ============ metadata

/-- A normalized metadata dictionary; an optional key that is not there
is `none`. -/
structure ArtifactMetadata where
  memoryKind : String
  scope : String
  namespace_ : String
  retention : String
  sourcePathway : String
  createdAt : String
  lastConfirmedAt : String
  tags : List String
  agentNamespace : Option String
  sourceMessageIds : Option (List String)
  sourceRoles : Option (List String)
  supersedes : Option (List String)
  confidence : Option PyVal
  embeddingRef : Option String
  summary : Option String
  tokenEstimate : Option PyVal
  staleAfter : Option String
  conflictKey : Option String
  mergePolicy : Option String
  contested : Option Bool

/-- The `source` of older files. -/
def renameSource (metadata : Fields) : Fields :=
  match lookupKey metadata "source" with
  | some source =>
    if (lookupKey metadata "source_pathway").isSome then metadata
    else
      setField (metadata.filter fun e => e.1 ≠ .str "source")
        (.str "source_pathway") source
  | none => metadata

def normalizedScope (scope : MemoryScope) (raw : Fields) :
    String × List String :=
  match (lookupKey raw "scope").getD (.str (scopeValue scope)) with
  | .str text =>
    if pyStrip text ∈ ["user", "project", "local"] then (pyStrip text, [])
    else (scopeValue scope, ["Invalid 'scope' field"])
  | _ => (scopeValue scope, ["Invalid 'scope' field"])

def normalizedNamespace (raw : Fields) : String × List String :=
  match givenText ((lookupKey raw "namespace").getD (.str "shared")) with
  | some text => (text, [])
  | none => ("shared", ["Invalid 'namespace' field"])

/-- `namespace.partition(":")[2].strip()`. -/
def afterColon (text : String) : String :=
  pyStrip (String.ofList ((text.toList.dropWhile (· ≠ ':')).drop 1))

/-- `hash(value)` raises of a list and of a mapping. -/
def hashable : PyVal → Bool
  | .list _ | .dict _ => false
  | _ => true

def normalizedAgentNamespace (raw : Fields) (namespace_ : String) :
    Except Raised (Option String × List String) := do
  let value := getField raw "agent_namespace"
  raiseIf (hashable value = false) Raised.typeError
  match value with
  | .none => return (derived, [])
  | .str "" => return (derived, [])
  | .str text => return (some (pyStrip text), [])
  | _ => return (none, ["Invalid 'agent_namespace' field"])
where
  derived : Option String :=
    if "agent:".isPrefixOf namespace_ ∧ afterColon namespace_ ≠ "" then
      some (pyStrip (afterColon namespace_))
    else none

/-- The integers `float()` rounds to a float. -/
def FloatRange (n : Int) : Prop := n.natAbs < 2 ^ 1024 - 2 ^ 970

instance (n : Int) : Decidable (FloatRange n) :=
  inferInstanceAs (Decidable (_ < _))

def normalizedConfidence (p : Platform) (raw : Fields) :
    Except Raised (Option PyVal × List String) :=
  match getField raw "confidence" with
  | .none => .ok (none, [])
  | .int n => do
    raiseIf (¬ FloatRange n) Raised.overflowError
    return (some (.float (p.float n)), [])
  | .float text => .ok (some (.float text), [])
  | .bool b => .ok (some (.float (p.float b.toInt)), [])
  | _ => .ok (none, ["Invalid 'confidence' field"])

def normalizedTokenEstimate (raw : Fields) : Option PyVal × List String :=
  match getField raw "token_estimate" with
  | .none => (none, [])
  | .int n =>
    if 0 ≤ n then (some (.int n), [])
    else (none, ["Invalid 'token_estimate' field"])
  | .bool b => (some (.bool b), [])
  | _ => (none, ["Invalid 'token_estimate' field"])

def normalizedStaleAfter (p : Platform) (raw : Fields) :
    Except Raised (Option String × List String) :=
  match getField raw "stale_after" with
  | .none => .ok (none, [])
  | value => do
    let (text, errors) ← coerceTimestamp p value "stale_after"
    return (some text, errors)

def normalizedContested (raw : Fields) : Option Bool × List String :=
  match getField raw "contested" with
  | .none => (none, [])
  | .bool b => (some b, [])
  | _ => (none, ["Invalid 'contested' field"])

def fieldOr (raw : Fields) (field default_ : String) : PyVal :=
  (lookupKey raw field).getD (.str default_)

def normalizeMemoryArtifactMetadata (p : Platform) (scope : MemoryScope)
    (metadata : Fields) (fallbackCreatedAt : String) :
    Except Raised (ArtifactMetadata × List String) := do
  let raw := renameSource metadata
  let (scope_, e₁) := normalizedScope scope raw
  let (namespace_, e₂) := normalizedNamespace raw
  let (memoryKind, e₃) ← coerceRequiredString p
    (fieldOr raw "memory_kind" "note") "memory_kind"
  let (retention, e₄) ← coerceRequiredString p
    (fieldOr raw "retention" "durable_until_superseded") "retention"
  let (sourcePathway, e₅) ← coerceRequiredString p
    (fieldOr raw "source_pathway" "rule") "source_pathway"
  let (createdAt, e₆) ← coerceTimestamp p
    (fieldOr raw "created_at" fallbackCreatedAt) "created_at"
  let (lastConfirmedAt, e₇) ← coerceTimestamp p
    (fieldOr raw "last_confirmed_at" fallbackCreatedAt) "last_confirmed_at"
  let (tags, e₈) := coerceStringList (getField raw "tags") "tags"
  let (agentNamespace, e₉) ← normalizedAgentNamespace raw namespace_
  let (sourceMessageIds, e₁₀) := optionalList raw "source_message_ids"
  let (sourceRoles, e₁₁) := optionalList raw "source_roles"
  let (supersedes, e₁₂) := optionalList raw "supersedes"
  let (confidence, e₁₃) ← normalizedConfidence p raw
  let (embeddingRef, e₁₄) := optionalText raw "embedding_ref"
  let (summary, e₁₅) := optionalText raw "summary"
  let (tokenEstimate, e₁₆) := normalizedTokenEstimate raw
  let (staleAfter, e₁₇) ← normalizedStaleAfter p raw
  let (conflictKey, e₁₈) := optionalText raw "conflict_key"
  let (mergePolicy, e₁₉) := optionalText raw "merge_policy"
  let (contested, e₂₀) := normalizedContested raw
  return ({ memoryKind, scope := scope_, namespace_, retention,
            sourcePathway, createdAt, lastConfirmedAt, tags,
            agentNamespace, sourceMessageIds, sourceRoles, supersedes,
            confidence, embeddingRef, summary, tokenEstimate, staleAfter,
            conflictKey, mergePolicy, contested },
    e₁ ++ e₂ ++ e₃ ++ e₄ ++ e₅ ++ e₆ ++ e₇ ++ e₈ ++ e₉ ++ e₁₀ ++ e₁₁
      ++ e₁₂ ++ e₁₃ ++ e₁₄ ++ e₁₅ ++ e₁₆ ++ e₁₇ ++ e₁₈ ++ e₁₉ ++ e₂₀)

-- ========= frontmatter

/-- What is left after `^---\s*$`, at the start of a line. The white space
ends at the end of the text, or before the last line break in it. -/
def boundary? : List Char → Option (List Char)
  | '-' :: '-' :: '-' :: rest =>
    let (space, tail) := rest.span isPySpace
    if tail.isEmpty then some []
    else if '\n' ∈ space then
      some ('\n' :: (space.reverse.takeWhile (· ≠ '\n')).reverse ++ tail)
    else none
  | _ => none

/-- The text before the next boundary and after it, with what was read so
far in reverse. -/
def findBoundary (lineStart : Bool) (before : List Char) :
    List Char → Option (List Char × List Char)
  | [] => none
  | c :: cs =>
    match if lineStart then boundary? (c :: cs) else none with
    | some rest => some (before.reverse, rest)
    | none => findBoundary (c = '\n') (c :: before) cs

inductive FrontmatterFailure where
  | definition (message : String)
  | yaml (failure : YamlFailure)

def splitDocument (text : List Char) :
    Except FrontmatterFailure (Option String × List Char) :=
  if !"---".toList.isPrefixOf text then .ok (none, text)
  else
    match findBoundary true [] text with
    | none => .error (.definition "Unterminated YAML frontmatter block")
    | some (_, rest) =>
      match findBoundary false [] rest with
      | none => .error (.definition "Unterminated YAML frontmatter block")
      | some (raw, body) =>
        .ok (some (String.ofList raw), body.dropWhile (· = '\n'))

def parseFrontmatterDocument (p : Platform) (text : List Char) :
    Except FrontmatterFailure (Fields × List Char) := do
  let (raw, body) ← splitDocument text
  match raw with
  | none => return ([], body)
  | some raw =>
    match p.safeLoad raw with
    | .error failure => .error (.yaml failure)
    | .ok (.dict fields) => return (fields, body)
    | .ok value =>
      raiseIf (value.truthy = true)
        (.definition "YAML frontmatter must decode to an object")
      return ([], body)

def isBlank (line : List Char) : Bool := line.all isPySpace

def extractTitleAndBody (defaultTitle : String) (body : List Char) :
    String × String :=
  let title := orDefault (pyStrip defaultTitle) "Memory note"
  match (splitlines body).dropWhile isBlank with
  | ('#' :: ' ' :: heading) :: rest =>
    (orDefault (pyStrip (String.ofList heading)) title,
      joined (rest.dropWhile isBlank))
  | lines => (title, joined lines)
where
  orDefault (text default_ : String) : String :=
    if text = "" then default_ else text
  joined (lines : List (List Char)) : String :=
    pyStrip (pyJoin "\n" (lines.map String.ofList))

/-- `ParsedMemoryArtifact`; without metadata where the frontmatter is not
read. -/
structure ParsedMemoryArtifact where
  title : String
  content : String
  metadata : Option ArtifactMetadata
  errors : List String

/-- `parse_memory_artifact`. The handler takes the errors of the definition
and `YAMLError`. -/
def parseMemoryArtifact (p : Platform) (scope : MemoryScope)
    (text : List Char) (defaultTitle fallbackCreatedAt : String) :
    Except Raised ParsedMemoryArtifact :=
  match parseFrontmatterDocument p text with
  | .error (.definition message) =>
    .ok ⟨defaultTitle, "", none, [message]⟩
  | .error (.yaml (.yamlError message)) =>
    .ok ⟨defaultTitle, "", none, [message]⟩
  | .error (.yaml .valueError) => .error .valueError
  | .ok (frontmatter, body) => do
    let (title, content) := extractTitleAndBody defaultTitle body
    let (metadata, errors) ← normalizeMemoryArtifactMetadata p scope
      frontmatter fallbackCreatedAt
    let empty :=
      if content = "" then ["Memory artifact body is empty"] else []
    return ⟨title, content, some metadata, errors ++ empty⟩

-- =============== files

/-- A file of the scope: the parts of its path from the memory root, and
its text. -/
abbrev MemoryFile := List String × String

def alignArtifactMetadataToPath (scope : MemoryScope) (path : List String)
    (metadata : ArtifactMetadata) : ArtifactMetadata × List String :=
  let e₁ := if metadata.scope ≠ scopeValue scope then
    ["Artifact scope does not match its boundary path"] else []
  match path with
  | "documents" :: _ =>
    let e₂ := if metadata.namespace_ ≠ "shared" then
      ["Long-term documents must use the shared namespace"] else []
    let e₃ := if metadata.agentNamespace ≠ none then
      ["Long-term documents cannot declare an agent namespace"] else []
    (metadata, e₁ ++ e₂ ++ e₃)
  | "agents" :: agent :: _ :: _ =>
    let expected := "agent:" ++ agent
    let (namespace_, e₂) :=
      if metadata.namespace_ ∈ ["", "shared", expected] then (expected, [])
      else (metadata.namespace_,
        ["Artifact namespace does not match its agent namespace path"])
    let (agentNamespace, e₃) :=
      if metadata.agentNamespace ∈ [none, some "", some agent] then
        (some agent, [])
      else (metadata.agentNamespace,
        ["Artifact agent namespace does not match its path"])
    ({ metadata with namespace_, agentNamespace }, e₁ ++ e₂ ++ e₃)
  | "agents" :: _ =>
    (metadata, e₁ ++ ["Agent namespace document path is incomplete"])
  | _ => (metadata, e₁)

structure MemoryDocument where
  path : List String
  title : String
  content : String
  kind : String
  metadata : ArtifactMetadata

def stem (name : String) : String :=
  let body := name.toList.reverse.dropWhile (· ≠ '.')
  if (body.drop 1).isEmpty then name
  else if name.toList.getLast? = some '.' then name
  else String.ofList (body.drop 1).reverse

def readMemoryDocument (p : Platform) (scope : MemoryScope)
    (file : MemoryFile) : Except Raised (Option MemoryDocument) := do
  let spaced := String.ofList ((stem (file.1.getLastD "")).toList.map
    fun c => if c = '-' then ' ' else c)
  let defaultTitle :=
    if pyStrip spaced = "" then "Memory note" else pyStrip spaced
  let parsed ← parseMemoryArtifact p scope file.2.toList defaultTitle
    (p.fileTimestamp file.1)
  match parsed.metadata, parsed.errors with
  | some metadata, [] =>
    let (aligned, errors) := alignArtifactMetadataToPath scope file.1 metadata
    return if errors.isEmpty then
      some ⟨file.1, parsed.title, parsed.content,
        if aligned.memoryKind = "" then "document" else aligned.memoryKind,
        aligned⟩
    else none
  | _, _ => return none

-- ========= what raises

variable {p : Platform}

def Printable (p : Platform) : PyVal → Prop
  | .none | .str _ => True
  | value => ∃ text, p.str value = .ok text

/-- A datetime that has a text in UTC, or no datetime. -/
def Datable (p : Platform) : PyVal → Prop
  | .other text => ∀ raised, p.utcText text ≠ some (.error raised)
  | _ => True

def Floatable : PyVal → Prop
  | .int n => FloatRange n
  | _ => True

/-- The fields of a frontmatter that the checks do not raise of. -/
structure Readable (p : Platform) (raw : Fields) : Prop where
  memoryKind : Printable p (getField raw "memory_kind")
  retention : Printable p (getField raw "retention")
  sourcePathway : Printable p (getField raw "source_pathway")
  createdAt : Datable p (getField raw "created_at")
  lastConfirmedAt : Datable p (getField raw "last_confirmed_at")
  agentNamespace : hashable (getField raw "agent_namespace") = true
  confidence : Floatable (getField raw "confidence")
  staleAfter : Datable p (getField raw "stale_after")

theorem coerceRequiredString_returns_iff (value : PyVal) (field : String) :
    (∃ r, coerceRequiredString p value field = .ok r)
      ↔ Printable p value := by
  unfold coerceRequiredString
  cases value with
  | none => exact iff_of_true ⟨_, rfl⟩ trivial
  | str text =>
    refine iff_of_true ?_ trivial
    dsimp only
    split
    · exact ⟨_, rfl⟩
    · exact ⟨_, rfl⟩
  | _ =>
    exact (exists_bind_iff fun _ => iff_true_intro ⟨_, rfl⟩).trans
      (Iff.of_eq (and_true _))

theorem coerceTimestamp_returns_iff (value : PyVal) (field : String) :
    (∃ r, coerceTimestamp p value field = .ok r) ↔ Datable p value := by
  unfold coerceTimestamp
  cases value with
  | other text =>
    unfold Datable
    dsimp only
    cases hutc : p.utcText text with
    | none =>
      refine iff_of_true ⟨_, rfl⟩ ?_
      intro raised h
      cases h
    | some utc =>
      cases utc with
      | ok text =>
        refine iff_of_true ⟨_, rfl⟩ ?_
        intro raised h
        cases h
      | error raised =>
        refine iff_of_false ?_ fun h => h raised rfl
        rintro ⟨r, h⟩
        cases h
  | _ =>
    refine iff_of_true ?_ trivial
    dsimp only
    split
    · split
      · exact ⟨_, rfl⟩
      · exact ⟨_, rfl⟩
    · exact ⟨_, rfl⟩

theorem printable_fieldOr {raw : Fields} {field default_ : String} :
    Printable p (fieldOr raw field default_)
      ↔ Printable p (getField raw field) := by
  unfold fieldOr getField
  cases lookupKey raw field with
  | none => exact Iff.rfl
  | some value => exact Iff.rfl

theorem datable_fieldOr {raw : Fields} {field default_ : String} :
    Datable p (fieldOr raw field default_)
      ↔ Datable p (getField raw field) := by
  unfold fieldOr getField
  cases lookupKey raw field with
  | none => exact Iff.rfl
  | some value => exact Iff.rfl

theorem normalizedAgentNamespace_returns_iff (raw : Fields)
    (namespace_ : String) :
    (∃ r, normalizedAgentNamespace raw namespace_ = .ok r)
      ↔ hashable (getField raw "agent_namespace") = true := by
  unfold normalizedAgentNamespace
  refine (exists_bind_iff (P := True) fun _ => iff_true_intro ?_).trans ?_
  · split
    · exact ⟨_, rfl⟩
    · exact ⟨_, rfl⟩
    · exact ⟨_, rfl⟩
    · exact ⟨_, rfl⟩
  · simp [raiseIf_eq_ok]

theorem normalizedConfidence_returns_iff (raw : Fields) :
    (∃ r, normalizedConfidence p raw = .ok r)
      ↔ Floatable (getField raw "confidence") := by
  unfold normalizedConfidence
  cases getField raw "confidence" with
  | int n =>
    refine (exists_bind_iff (P := True) fun _ =>
      iff_true_intro ⟨_, rfl⟩).trans ?_
    simp [raiseIf_eq_ok, Floatable]
  | _ => exact iff_of_true ⟨_, rfl⟩ trivial

theorem normalizedStaleAfter_returns_iff (raw : Fields) :
    (∃ r, normalizedStaleAfter p raw = .ok r)
      ↔ Datable p (getField raw "stale_after") := by
  unfold normalizedStaleAfter
  cases getField raw "stale_after" with
  | none => exact iff_of_true ⟨_, rfl⟩ trivial
  | _ =>
    refine (exists_bind_iff (P := True) fun _ =>
      iff_true_intro ⟨_, rfl⟩).trans ?_
    rw [coerceTimestamp_returns_iff, and_true]

theorem normalize_returns_iff (scope : MemoryScope) (metadata : Fields)
    (fallbackCreatedAt : String) :
    (∃ r, normalizeMemoryArtifactMetadata p scope metadata fallbackCreatedAt
        = .ok r) ↔ Readable p (renameSource metadata) := by
  unfold normalizeMemoryArtifactMetadata
  refine (exists_bind_iff fun _ => exists_bind_iff fun _ =>
    exists_bind_iff fun _ => exists_bind_iff fun _ => exists_bind_iff fun _ =>
    exists_bind_iff fun _ => exists_bind_iff fun _ => exists_bind_iff
      fun _ => iff_true_intro ⟨_, rfl⟩).trans ?_
  simp only [coerceRequiredString_returns_iff, coerceTimestamp_returns_iff,
    normalizedAgentNamespace_returns_iff, normalizedConfidence_returns_iff,
    normalizedStaleAfter_returns_iff, printable_fieldOr, datable_fieldOr,
    and_true]
  constructor
  · rintro ⟨h₁, h₂, h₃, h₄, h₅, h₆, h₇, h₈⟩
    exact ⟨h₁, h₂, h₃, h₄, h₅, h₆, h₇, h₈⟩
  · intro h
    exact ⟨h.memoryKind, h.retention, h.sourcePathway, h.createdAt,
      h.lastConfirmedAt, h.agentNamespace, h.confidence, h.staleAfter⟩

/-- The frontmatter of a text is loaded without a `ValueError`, and the
fields it is loaded to are readable. -/
def Loads (p : Platform) (text : List Char) : Prop :=
  parseFrontmatterDocument p text ≠ .error (.yaml .valueError)
    ∧ ∀ fields body, parseFrontmatterDocument p text = .ok (fields, body) →
      Readable p (renameSource fields)

theorem parseMemoryArtifact_returns_iff (scope : MemoryScope)
    (text : List Char) (defaultTitle fallbackCreatedAt : String) :
    (∃ r, parseMemoryArtifact p scope text defaultTitle fallbackCreatedAt
        = .ok r) ↔ Loads p text := by
  unfold parseMemoryArtifact Loads
  cases hparse : parseFrontmatterDocument p text with
  | error failure =>
    match failure with
    | .definition message => simp
    | .yaml (.yamlError message) => simp
    | .yaml .valueError => simp
  | ok found =>
    obtain ⟨fields, body⟩ := found
    refine (exists_bind_iff fun _ => iff_true_intro ⟨_, rfl⟩).trans ?_
    rw [and_true, normalize_returns_iff]
    simp

/-- A file is read, or found to hold no artifact, exactly where its text
loads. -/
theorem readMemoryDocument_returns_iff (scope : MemoryScope)
    (file : MemoryFile) :
    (∃ r, readMemoryDocument p scope file = .ok r)
      ↔ Loads p file.2.toList := by
  unfold readMemoryDocument
  refine (exists_bind_iff (P := True) fun parsed => iff_true_intro ?_).trans
    ((Iff.of_eq (and_true _)).trans (parseMemoryArtifact_returns_iff ..))
  split
  · exact ⟨_, rfl⟩
  · exact ⟨_, rfl⟩

end WeaveRuntime.Memory.Documents
