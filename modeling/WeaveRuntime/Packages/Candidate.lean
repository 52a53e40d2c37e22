/-
Package candidates: what a manifest becomes in the package catalog, and
the tests the resolver makes on it.

A dependency constraint asks for a package by name, and may pin the
candidate, its version or a range of versions. `matches` reads the versions
it compares, and reading one can raise: a token of a version is taken for a
number where `str.isdigit()` holds of it, and `int()` accepts fewer texts
than that (`pyIsDigit`, `pyIntOfDigits`).

# What stands outside

`str.lower` is a parameter: nothing here depends on what it does to a
token. A mapping's values are `PyVal`, so a tuple is a list and an object
of a foreign type is not iterable.
-/
import WeaveRuntime.Jobs.Model
import WeaveRuntime.Lib.Dict
import WeaveRuntime.Skills.Expansion
import Mathlib.Data.List.Basic

namespace WeaveRuntime.Packages

open Lib
open Python
open Jobs (Fields setField getField)

-- ========== exceptions

/-- What the package system raises. -/
inductive PackageError where
  | valueError (message : String)
  | keyError (message : String)
  | typeError (message : String)
  | notIterable (value : PyVal)
  | attributeError (message : String)

def requireNonEmpty (value fieldName : String) : Except PackageError String :=
  if pyStrip value = "" then
    .error (.valueError (fieldName ++ " must be a non-empty string"))
  else .ok (pyStrip value)

theorem requireNonEmpty_eq_ok {value fieldName s : String} :
    requireNonEmpty value fieldName = .ok s
      ↔ pyStrip value ≠ "" ∧ s = pyStrip value := by
  unfold requireNonEmpty
  by_cases h : pyStrip value = ""
  · simp [h]
  · simp [h, eq_comm]

theorem requireNonEmpty_of_stripped {value : String} (h : Stripped value)
    (fieldName : String) : requireNonEmpty value fieldName = .ok value := by
  rw [requireNonEmpty_eq_ok, h.1]
  exact ⟨h.2, rfl⟩

-- =============== names

def firstPartyNameMap : List (String × String) :=
  [("weavert-core", "weavert-core"),
   ("weavert-default", "weavert-default"),
   ("weavert-full", "weavert-full"),
   ("weavert-memory", "weavert-memory"),
   ("weavert-team", "weavert-team"),
   ("weavert-compaction", "weavert-compaction"),
   ("weavert-isolation", "weavert-isolation"),
   ("weavert-openai", "weavert-openai"),
   ("weavert-hosts-reference", "weavert-hosts-reference"),
   ("weavert-stores-file", "weavert-stores-file"),
   ("weavert-builtin-workflows", "weavert-builtin-workflows"),
   ("weavert-planning", "weavert-planning"),
   ("weavert-devtools", "weavert-devtools")]

def canonicalFirstPartyName (name : String) : String :=
  (firstPartyNameMap.lookup name).getD name

def canonicalDistributionName (name : String) : String :=
  canonicalFirstPartyName name

@[simp] theorem canonicalFirstPartyName_eq (name : String) :
    canonicalFirstPartyName name = name := by
  have hsame : ∀ entries : List (String × String),
      (∀ e ∈ entries, e.1 = e.2) → (entries.lookup name).getD name = name := by
    intro entries
    induction entries with
    | nil => exact fun _ => rfl
    | cons e rest ih =>
      intro h
      obtain ⟨key, value⟩ := e
      rw [List.lookup_cons]
      cases hkey : name == key with
      | true =>
        have heq : key = value := h (key, value) List.mem_cons_self
        rw [beq_iff_eq] at hkey
        rw [hkey, heq]
        rfl
      | false => exact ih fun e he => h e (List.mem_cons_of_mem _ he)
  refine hsame firstPartyNameMap ?_
  decide

/-- `_stable_unique_names`: stripped, without blanks, each at its first
place. -/
def stableUniqueNames (values : List String) : List String :=
  values.foldl (fun ordered raw =>
    match stripOrNone raw with
    | none => ordered
    | some packageName =>
      if packageName ∈ ordered then ordered else ordered ++ [packageName]) []

-- ============ versions

/-- The characters that are digits for `str.isdigit()` beside the decimal
ones, as ranges: superscripts, circled digits and the like. -/
def otherDigits : List (Nat × Nat) :=
  [(0xb2, 0xb3), (0xb9, 0xb9), (0x1369, 0x1371), (0x19da, 0x19da),
   (0x2070, 0x2070), (0x2074, 0x2079), (0x2080, 0x2089), (0x2460, 0x2468),
   (0x2474, 0x247c), (0x2488, 0x2490), (0x24ea, 0x24ea), (0x24f5, 0x24fd),
   (0x24ff, 0x24ff), (0x2776, 0x277e), (0x2780, 0x2788), (0x278a, 0x2792),
   (0x10a40, 0x10a43), (0x10e60, 0x10e68), (0x11052, 0x1105a),
   (0x1f100, 0x1f10a)]

/-- `token.isdigit()`. -/
def pyIsDigit (token : List Char) : Bool :=
  !token.isEmpty && token.all fun c =>
    Skills.isDigit c
      || otherDigits.any fun r => r.1 ≤ c.toNat && c.toNat ≤ r.2

/-- The longest text of digits `int()` converts. -/
def intMaxStrDigits : Nat := 4300

/-- `int(token)` of a token that `isdigit()` holds of. -/
def pyIntOfDigits (token : List Char) : Except PackageError Nat :=
  if token.all Skills.isDigit then
    if token.length ≤ intMaxStrDigits then .ok (Skills.digitsValue token)
    else .error (.valueError
      ("Exceeds the limit (" ++ toString intMaxStrDigits
        ++ " digits) for integer string conversion: value has "
        ++ toString token.length
        ++ " digits; use sys.set_int_max_str_digits() to increase the limit"))
  else .error (.valueError
    ("invalid literal for int() with base 10: "
      ++ Python.reprStr (String.ofList token)))

inductive VersionPart where
  | number (n : Nat)
  | word (text : String)
  deriving DecidableEq

/-- The order of Python's tuples. -/
def VersionPart.lt : VersionPart → VersionPart → Bool
  | .number a, .number b => decide (a < b)
  | .number _, .word _ => true
  | .word _, .number _ => false
  | .word a, .word b => decide (a < b)

section Versions

variable (lower : String → String)

def versionPart (token : List Char) : Except PackageError VersionPart :=
  if pyIsDigit token then do
    let n ← pyIntOfDigits token
    return .number n
  else .ok (.word (lower (String.ofList token)))

def isVersionSeparator (c : Char) : Bool :=
  c = '.' || c = '-' || c = '_' || c = '+'

/-- The tokens of `re.split(r"[.\-_+]", value.strip())` that are not
empty. -/
def versionTokens (value : String) : List (List Char) :=
  ((pyStrip value).toList.splitOnP isVersionSeparator).filter fun token =>
    !token.isEmpty

def versionParts (value : String) : Except PackageError (List VersionPart) :=
  (versionTokens value).mapM (versionPart lower)

/-- Two parts that are compared: go on where they are equal. -/
def comparePart (left right : VersionPart) (rest : Int) : Int :=
  if left = right then rest else if left.lt right then -1 else 1

/-- The loop over `zip_longest(left, right, fillvalue=(0, 0))`. -/
def compareParts : List VersionPart → List VersionPart → Int
  | [], rs => rs.foldr (fun r => comparePart (.number 0) r) 0
  | l :: ls, rs =>
    comparePart l (rs.headD (.number 0)) (compareParts ls rs.tail)

def compareVersions (left right : String) : Except PackageError Int := do
  let leftParts ← versionParts lower left
  let rightParts ← versionParts lower right
  return compareParts leftParts rightParts

end Versions

-- =========== manifests

/-- A package's manifest. Its entry point plays no part in resolution. -/
structure RuntimePackageManifest where
  name : String
  role : String
  description : String
  dependencies : List String
  metadata : Fields
  name_stripped : Stripped name
  role_stripped : Stripped role

/-- `iter(value)`. -/
def pyIter : PyVal → Except PackageError (List PyVal)
  | .list items => .ok items
  | .str s => .ok (s.toList.map fun c => .str (String.singleton c))
  | .dict items => .ok (items.map fun e =>
    match e.1 with
    | .str s => .str s
    | .other t => .other t)
  | v => .error (.notIterable v)

def surfaceContractMetadataKeys : List String :=
  ["package_candidate", "reference_kind", "shared_surface_family",
   "intended_profiles", "shared_surfaces", "tool_ids", "agent_ids",
   "skill_ids", "scenario_profile", "recommended_distribution",
   "recommended_first_party_packages", "shared_package_dependencies",
   "expected_tools", "expected_agents", "expected_skills",
   "workflow_tool_ids", "workflow_agent_ids", "workflow_skill_ids",
   "default_boundaries", "app_owned_wiring", "host_assumptions",
   "permission_policy_posture", "profile_prompt_fragments",
   "staged_scope_boundaries", "notes"]

/-- The entries of the metadata under these keys, in their order. A copy
of a value is the value. -/
def projectedMetadata (keys : List String) (metadata : Fields) : Fields :=
  keys.filterMap fun key =>
    (lookupKey metadata key).map fun value => (.str key, value)

/-- `fields.update(patch)`, key by key. -/
def updatedWith (fields patch : Fields) : Fields :=
  patch.foldl (fun acc e => setField acc e.1 e.2) fields

def serializeManifestSummary (manifest : RuntimePackageManifest) :
    Except PackageError Fields := do
  let providers ←
    match lookupKey manifest.metadata "invocation_providers" with
    | none => .ok []
    | some value => pyIter value
  return updatedWith
    (updatedWith
      [(.str "name", .str manifest.name),
       (.str "role", .str manifest.role),
       (.str "description", .str manifest.description),
       (.str "dependencies", .list (manifest.dependencies.map .str)),
       (.str "invocation_providers", .list providers)]
      (projectedMetadata
        ["package_pattern", "baseline_dependencies", "invocation_providers",
         "provider_registration_path", "provider_registration_order",
         "provider_package_ordering", "capabilities",
         "capability_registration_path", "context_contributors",
         "context_contributor_registration_path",
         "context_contributor_stages"] manifest.metadata))
    (projectedMetadata surfaceContractMetadataKeys manifest.metadata)

-- ========= constraints

structure RuntimePackageDependencyConstraint where
  packageName : String
  candidateId : Option String
  version : Option String
  minimumVersion : Option String
  maximumVersion : Option String
  includeMinimum : Bool
  includeMaximum : Bool
  kind : String
  metadata : Fields

/-- The constructor. -/
def RuntimePackageDependencyConstraint.build (packageName : String)
    (candidateId version minimumVersion maximumVersion : Option String)
    (includeMinimum includeMaximum : Bool) (kind : String)
    (metadata : Fields) :
    Except PackageError RuntimePackageDependencyConstraint := do
  let packageName ← requireNonEmpty packageName "package_name"
  let kind ← requireNonEmpty kind "kind"
  return {
    packageName := canonicalFirstPartyName packageName
    candidateId := coerceOptional candidateId
    version := coerceOptional version
    minimumVersion := coerceOptional minimumVersion
    maximumVersion := coerceOptional maximumVersion
    includeMinimum, includeMaximum, kind, metadata }

def RuntimePackageDependencyConstraint.named (packageName kind : String) :
    Except PackageError RuntimePackageDependencyConstraint :=
  RuntimePackageDependencyConstraint.build packageName none none none none
    true false kind []

def optionalText : Option String → PyVal
  | none => .none
  | some s => .str s

/-- The entry of an optional text that is given. -/
def givenText (key : String) (text : Option String) : Fields :=
  text.toList.map fun s => (.str key, .str s)

def RuntimePackageDependencyConstraint.toMetadata
    (constraint : RuntimePackageDependencyConstraint) : Fields :=
  [(.str "package_name", .str constraint.packageName),
   (.str "kind", .str constraint.kind)]
    ++ givenText "candidate_id" constraint.candidateId
    ++ givenText "version" constraint.version
    ++ (if constraint.minimumVersion ≠ none
          ∨ constraint.maximumVersion ≠ none then
        [(.str "version_range", .dict
          [(.str "minimum_version", optionalText constraint.minimumVersion),
           (.str "maximum_version", optionalText constraint.maximumVersion),
           (.str "include_minimum", .bool constraint.includeMinimum),
           (.str "include_maximum", .bool constraint.includeMaximum)])]
      else [])
    ++ (if constraint.metadata.isEmpty then []
      else [(.str "metadata", .dict constraint.metadata)])

-- ========== candidates

structure RuntimePackageCandidateDescriptor where
  packageName : String
  candidateId : String
  manifest : RuntimePackageManifest
  source : Fields
  dependencyConstraints : List RuntimePackageDependencyConstraint
  version : Option String
  compatibility : Fields
  metadata : Fields

/-- The distributions a key of the compatibility mapping names. -/
def RuntimePackageCandidateDescriptor.distributionNames
    (candidate : RuntimePackageCandidateDescriptor) (key : String) :
    Except PackageError (List String) := do
  let items ←
    match lookupKey candidate.compatibility key with
    | none => .ok []
    | some value => pyIter value
  return (items.filterMap coerceOptionalString).map canonicalDistributionName

def RuntimePackageCandidateDescriptor.supportsDistribution
    (candidate : RuntimePackageCandidateDescriptor) (distribution : String) :
    Except PackageError Bool := do
  let normalizedDistribution := canonicalDistributionName distribution
  let allowed ← candidate.distributionNames "distributions"
  let denied ← candidate.distributionNames "excluded_distributions"
  if allowed ≠ [] ∧ normalizedDistribution ∉ allowed then
    return false
  if normalizedDistribution ∈ denied then
    return false
  return true

def RuntimePackageCandidateDescriptor.compatibilityMetadata
    (candidate : RuntimePackageCandidateDescriptor) :
    Except PackageError Fields := do
  let allowed ← candidate.distributionNames "distributions"
  let denied ← candidate.distributionNames "excluded_distributions"
  return (if allowed.isEmpty then []
      else [(.str "distributions", .list (allowed.map .str))])
    ++ (if denied.isEmpty then []
      else [(.str "excluded_distributions", .list (denied.map .str))])

def RuntimePackageCandidateDescriptor.toMetadata
    (candidate : RuntimePackageCandidateDescriptor) :
    Except PackageError Fields := do
  let manifest ← serializeManifestSummary candidate.manifest
  let compatibility ← candidate.compatibilityMetadata
  return [(.str "package_name", .str candidate.packageName),
     (.str "candidate_id", .str candidate.candidateId),
     (.str "source", .dict candidate.source),
     (.str "manifest", .dict manifest),
     (.str "dependency_constraints", .list
       (candidate.dependencyConstraints.map fun c => .dict c.toMetadata))]
    ++ givenText "version" candidate.version
    ++ (if compatibility.isEmpty then []
      else [(.str "compatibility", .dict compatibility)])

-- ============= matches

/-- A bound of a version range, where it is given: the candidate has a
version, and it compares with the bound as asked. -/
def withinBound (lower : String → String)
    (candidate : RuntimePackageCandidateDescriptor) (bound : Option String)
    (admits : Int → Bool) : Except PackageError Bool :=
  match bound with
  | none => .ok true
  | some bound =>
    match candidate.version with
    | none => .ok false
    | some version => do
      let comparison ← compareVersions lower version bound
      return admits comparison

def RuntimePackageDependencyConstraint.matches (lower : String → String)
    (constraint : RuntimePackageDependencyConstraint)
    (candidate : RuntimePackageCandidateDescriptor) :
    Except PackageError Bool := do
  if candidate.packageName ≠ constraint.packageName then
    return false
  if constraint.candidateId ≠ none
      ∧ some candidate.candidateId ≠ constraint.candidateId then
    return false
  if constraint.version ≠ none
      ∧ candidate.version ≠ constraint.version then
    return false
  let above ← withinBound lower candidate constraint.minimumVersion
    fun comparison => !(comparison < 0
      || (comparison == 0 && !constraint.includeMinimum))
  if !above then
    return false
  withinBound lower candidate constraint.maximumVersion
    fun comparison => !(comparison > 0
      || (comparison == 0 && !constraint.includeMaximum))

end WeaveRuntime.Packages
