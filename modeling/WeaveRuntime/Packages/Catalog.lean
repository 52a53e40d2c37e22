/-
The package catalog and the request that is resolved against it.

`candidateDescriptor` turns a manifest into a candidate: the plain
dependencies and the structured ones of its metadata become constraints,
and the manifest's dependencies become the names those constraints ask for,
so that the resolver and the ordering of manifests see the same edges
(`Described`).

`byPackageName` sorts the candidates and groups them by package, which is
the order the resolver tries them in.
-/
import WeaveRuntime.Packages.Candidate
import Mathlib.Data.List.Induction
import Mathlib.Data.List.Sort

namespace WeaveRuntime.Packages

open Lib
open Python
open Jobs (Fields setField getField)

-- ==== structured dependencies

/-- `mapping.get(key, default)`. -/
def getOr (fields : Fields) (key : String) (fallback : PyVal) : PyVal :=
  (lookupKey fields key).getD fallback

def pyPair : PyVal → Except PackageError (PyKey × PyVal)
  | .list [.str key, value] => .ok (.str key, value)
  | .list [.list items, _] => .error (.typeError
      ("unhashable type: 'list' (" ++ pyRepr (.list items) ++ ")"))
  | .list [.dict items, _] => .error (.typeError
      ("unhashable type: 'dict' (" ++ pyRepr (.dict items) ++ ")"))
  | .list [key, value] => .ok (.other (pyRepr key), value)
  | .str s =>
    match s.toList with
    | [key, value] =>
      .ok (.str (String.singleton key), .str (String.singleton value))
    | _ => .error (.valueError "dictionary update sequence element")
  | .list _ => .error (.valueError "dictionary update sequence element")
  | v => .error (.notIterable v)

def pyDict : PyVal → Except PackageError Fields
  | .dict items => .ok items
  | value => do
    let items ← pyIter value
    let pairs ← items.mapM pyPair
    return updatedWith [] pairs

def candidateMetadata (manifest : RuntimePackageManifest) : Fields :=
  match lookupKey manifest.metadata "package_candidate" with
  | some (.dict raw) => raw
  | _ => []

/-- The keys of a structured dependency that are read. -/
def dependencyKeys : List String :=
  ["package_name", "name", "candidate_id", "version", "minimum_version",
   "maximum_version", "include_minimum", "include_maximum", "version_range"]

/-- `raw_dependency.get("version_range", {})`, as the mapping the bounds
are looked up in. -/
def versionRange (manifestName : String) (dependency : Fields) :
    Except PackageError Fields :=
  match lookupKey dependency "version_range" with
  | none => .ok []
  | some (.dict range) => .ok range
  | some .none => .error (.attributeError
      "'NoneType' object has no attribute 'get'")
  | some _ => .error (.valueError
      ("Structured package dependency for '" ++ manifestName
        ++ "' has invalid version_range"))

def structuredConstraint (manifestName : String) (raw : PyVal) :
    Except PackageError RuntimePackageDependencyConstraint := do
  let .dict dependency := raw
    | .error (.valueError ("Structured package dependency for '"
        ++ manifestName ++ "' must be a mapping"))
  let some packageName := coerceOptionalString
      (pyOr (getField dependency "package_name") (getField dependency "name"))
    | .error (.valueError ("Structured package dependency for '"
        ++ manifestName ++ "' must declare package_name"))
  let range ← versionRange manifestName dependency
  RuntimePackageDependencyConstraint.build packageName
    (coerceOptionalString (getField dependency "candidate_id"))
    (coerceOptionalString (getField dependency "version"))
    (coerceOptionalString (pyOr (getField dependency "minimum_version")
      (getField range "minimum_version")))
    (coerceOptionalString (pyOr (getField dependency "maximum_version")
      (getField range "maximum_version")))
    (getOr dependency "include_minimum"
      (getOr range "include_minimum" (.bool true))).truthy
    (getOr dependency "include_maximum"
      (getOr range "include_maximum" (.bool false))).truthy
    "structured"
    (dependency.filter fun e => ∀ key ∈ dependencyKeys, e.1 ≠ .str key)

def normalizedDependencyConstraints (manifest : RuntimePackageManifest)
    (metadata : Fields) :
    Except PackageError (List RuntimePackageDependencyConstraint) := do
  let constraints ← manifest.dependencies.mapM fun dependency =>
    RuntimePackageDependencyConstraint.named dependency "legacy"
  match lookupKey metadata "dependencies" with
  | some (.list structuredDependencies) =>
    let more ← structuredDependencies.mapM
      (structuredConstraint manifest.name)
    return constraints ++ more
  | _ => return constraints

-- ========= descriptors

def hasAt (text : String) : Bool := text.toList.contains '@'

def candidateDescriptor (manifest : RuntimePackageManifest) (source : Fields)
    (defaultCandidateId : Option String) :
    Except PackageError RuntimePackageCandidateDescriptor := do
  let metadata := candidateMetadata manifest
  let dependencyConstraints ← normalizedDependencyConstraints manifest metadata
  let dependencyNames := stableUniqueNames
    (manifest.dependencies ++ dependencyConstraints.map (·.packageName))
  let candidateId := (coerceOptionalString (getField metadata "candidate_id")
    ).getD (defaultCandidateId.getD ("official::" ++ manifest.name))
  let version := coerceOptionalString (getField metadata "version")
  let candidateId :=
    match version with
    | some text =>
      if !hasAt candidateId && "official::".isPrefixOf candidateId then
        candidateId ++ "@" ++ text
      else candidateId
    | none => candidateId
  let compatibility ← pyDict (getOr metadata "compatibility" (.dict []))
  let packageName ← requireNonEmpty manifest.name "package_name"
  let candidateId ← requireNonEmpty candidateId "candidate_id"
  return {
    packageName := canonicalFirstPartyName packageName
    candidateId
    manifest := { manifest with dependencies := dependencyNames }
    source
    dependencyConstraints
    version := coerceOptional version
    compatibility
    metadata }

structure Described (candidate : RuntimePackageCandidateDescriptor) :
    Prop where
  name : candidate.manifest.name = candidate.packageName
  stripped : Stripped candidate.packageName
  named : ∀ c ∈ candidate.dependencyConstraints, Stripped c.packageName
  edges : ∀ name, name ∈ candidate.manifest.dependencies
    ↔ ∃ c ∈ candidate.dependencyConstraints, c.packageName = name

-- ============ catalogs

structure AcceptedRuntimePackageRegistration where
  manifest : RuntimePackageManifest
  registrationIndex : Nat
  sourceKind : String
  sourceRef : String

def AcceptedRuntimePackageRegistration.provenance
    (record : AcceptedRuntimePackageRegistration) : Fields :=
  [(.str "origin", .str "external"),
   (.str "registration_path", .str "RuntimeConfig.extra_package_manifests"),
   (.str "registration_index", .int record.registrationIndex),
   (.str "source_kind", .str record.sourceKind),
   (.str "source_ref", .str record.sourceRef)]

structure RuntimePackageCatalog where
  candidates : List RuntimePackageCandidateDescriptor

def officialCandidate (manifest : RuntimePackageManifest) :
    Except PackageError RuntimePackageCandidateDescriptor :=
  candidateDescriptor manifest
    [(.str "origin", .str "first_party"),
     (.str "source_kind", .str "official-catalog"),
     (.str "source_ref", .str
       ("weavert.package_system.catalog:OFFICIAL_RUNTIME_PACKAGE_CATALOG['"
         ++ manifest.name ++ "']"))] none

def externalCandidate (record : AcceptedRuntimePackageRegistration) :
    Except PackageError RuntimePackageCandidateDescriptor :=
  candidateDescriptor record.manifest record.provenance
    (some ("external::" ++ record.manifest.name ++ "#"
      ++ toString record.registrationIndex))

/-- `build_runtime_package_catalog`, from the official manifests and what
the registration report accepted. -/
def buildRuntimePackageCatalog
    (firstPartyManifests : List RuntimePackageManifest)
    (accepted : List AcceptedRuntimePackageRegistration) :
    Except PackageError RuntimePackageCatalog := do
  let official ← firstPartyManifests.mapM officialCandidate
  let external ← accepted.mapM externalCandidate
  return ⟨official ++ external⟩

def originRank (candidate : RuntimePackageCandidateDescriptor) : Nat :=
  if pyStrip (pyStr (getOr candidate.source "origin" (.str "external")))
      = "first_party" then 0 else 1

/-- `_candidate_sort_key`, as the order it sorts by. -/
def sortsBefore (a b : RuntimePackageCandidateDescriptor) : Prop :=
  originRank a < originRank b
    ∨ (originRank a = originRank b
      ∧ (a.packageName < b.packageName
        ∨ (a.packageName = b.packageName ∧ a.candidateId ≤ b.candidateId)))

instance (a b : RuntimePackageCandidateDescriptor) :
    Decidable (sortsBefore a b) :=
  inferInstanceAs (Decidable (_ ∨ (_ ∧ (_ ∨ (_ ∧ _)))))

abbrev CatalogByName := Dict String (List RuntimePackageCandidateDescriptor)

def groupBy (key : RuntimePackageCandidateDescriptor → String)
    (candidates : List RuntimePackageCandidateDescriptor) : CatalogByName :=
  candidates.foldl (fun grouped candidate =>
    grouped.insert (key candidate)
      ((grouped.get? (key candidate)).getD [] ++ [candidate])) Dict.empty

def RuntimePackageCatalog.byPackageName (catalog : RuntimePackageCatalog) :
    CatalogByName :=
  groupBy (·.packageName) (catalog.candidates.insertionSort sortsBefore)

-- ============ requests

structure RuntimePackageRequest where
  distribution : String
  baselinePackages : List String
  enabledFirstPartyPackages : List String
  disabledFirstPartyPackages : List String
  explicitPackageRequests : List String
  requestedPackages : List String
  distribution_stripped : Stripped distribution

def normalizedNames (names : List String) (fieldName : String) :
    Except PackageError (List String) := do
  let names ← names.mapM fun name => requireNonEmpty name fieldName
  return (names.map canonicalFirstPartyName).dedup.insertionSort (· ≤ ·)

def buildRuntimePackageRequest (distribution : String)
    (baselinePackages enabledPackages disabledPackages
      explicitPackageRequests selectedFirstPartyPackages
      firstPartyPackageNames : List String) :
    Except PackageError RuntimePackageRequest := do
  let normalizedEnabled ← normalizedNames enabledPackages "enabled_package"
  let normalizedDisabled ← normalizedNames disabledPackages "disabled_package"
  let normalizedSelected :=
    selectedFirstPartyPackages.map canonicalFirstPartyName
  let normalizedExplicit ←
    normalizedNames explicitPackageRequests "explicit_package_request"
  let firstPartyNames := firstPartyPackageNames.map canonicalFirstPartyName
  let conflicting := normalizedExplicit.filter fun name =>
    name ∈ firstPartyNames ∧ name ∉ normalizedSelected
  if conflicting ≠ [] then
    .error (.valueError
      ("Explicit package requests must target admitted external package "
        ++ "names; use enabled_packages/disabled_packages for first-party "
        ++ "packages: " ++ ", ".intercalate conflicting))
  else if h : pyStrip distribution = "" then
    .error (.valueError "distribution must be a non-empty string")
  else
    return {
      distribution := pyStrip distribution
      baselinePackages := baselinePackages.map canonicalFirstPartyName
      enabledFirstPartyPackages := normalizedEnabled
      disabledFirstPartyPackages := normalizedDisabled
      explicitPackageRequests := normalizedExplicit
      requestedPackages :=
        stableUniqueNames (normalizedSelected ++ normalizedExplicit)
      distribution_stripped := ⟨pyStrip_pyStrip distribution, h⟩ }

-- ============== lemmas

theorem mem_stableUniqueNames {values : List String} {name : String} :
    name ∈ stableUniqueNames values
      ↔ ∃ raw ∈ values, stripOrNone raw = some name := by
  unfold stableUniqueNames
  induction values using List.reverseRecOn with
  | nil => simp
  | append_singleton values raw ih =>
    rw [List.foldl_append]
    generalize values.foldl _ [] = ordered at ih ⊢
    simp only [List.foldl_cons, List.foldl_nil]
    have hsplit : (∃ r ∈ values ++ [raw], stripOrNone r = some name)
        ↔ name ∈ ordered ∨ stripOrNone raw = some name := by
      rw [ih]
      simp [or_and_right, exists_or]
    rw [hsplit]
    cases hraw : stripOrNone raw with
    | none => simp
    | some packageName =>
      by_cases hmem : packageName ∈ ordered
      · simp only [if_pos hmem, Option.some.injEq]
        refine ⟨Or.inl, fun h => h.elim id fun heq => ?_⟩
        rwa [← heq]
      · simp only [if_neg hmem, List.mem_append, List.mem_singleton,
          Option.some.injEq, eq_comm]

theorem stripped_of_build {packageName : String}
    {candidateId version minimumVersion maximumVersion : Option String}
    {includeMinimum includeMaximum : Bool} {kind : String} {metadata : Fields}
    {c : RuntimePackageDependencyConstraint}
    (h : RuntimePackageDependencyConstraint.build packageName candidateId
      version minimumVersion maximumVersion includeMinimum includeMaximum
      kind metadata = .ok c) :
    c.packageName = pyStrip packageName ∧ Stripped c.packageName := by
  unfold RuntimePackageDependencyConstraint.build at h
  obtain ⟨name, hname, h⟩ := bind_eq_ok.1 h
  obtain ⟨kind', -, h⟩ := bind_eq_ok.1 h
  cases h
  obtain ⟨hne, rfl⟩ := requireNonEmpty_eq_ok.1 hname
  rw [canonicalFirstPartyName_eq]
  exact ⟨rfl, pyStrip_pyStrip packageName, hne⟩

theorem stripped_of_structuredConstraint {manifestName : String} {raw : PyVal}
    {c : RuntimePackageDependencyConstraint}
    (h : structuredConstraint manifestName raw = .ok c) :
    Stripped c.packageName := by
  unfold structuredConstraint at h
  split at h
  · split at h
    · obtain ⟨range, -, h⟩ := bind_eq_ok.1 h
      exact (stripped_of_build h).2
    · cases h
  · cases h

theorem plain_constraints {dependencies : List String}
    {plain : List RuntimePackageDependencyConstraint}
    (h : (dependencies.mapM fun dependency =>
      RuntimePackageDependencyConstraint.named dependency "legacy")
        = .ok plain) :
    ∀ dependency ∈ dependencies,
      ∃ c ∈ plain, c.packageName = pyStrip dependency := by
  induction dependencies generalizing plain with
  | nil => simp
  | cons dependency rest ih =>
    rw [List.mapM_cons] at h
    obtain ⟨c, hc, h⟩ := bind_eq_ok.1 h
    obtain ⟨cs, hcs, h⟩ := bind_eq_ok.1 h
    cases h
    intro name hname
    rcases List.mem_cons.1 hname with rfl | hname
    · exact ⟨c, List.mem_cons_self, (stripped_of_build hc).1⟩
    · obtain ⟨c', hc', heq⟩ := ih hcs name hname
      exact ⟨c', List.mem_cons_of_mem _ hc', heq⟩

/-- The constraints of a manifest: one for each plain dependency, all with
stripped names. -/
theorem normalizedDependencyConstraints_spec
    {manifest : RuntimePackageManifest} {metadata : Fields}
    {constraints : List RuntimePackageDependencyConstraint}
    (h : normalizedDependencyConstraints manifest metadata
      = .ok constraints) :
    (∀ c ∈ constraints, Stripped c.packageName)
      ∧ ∀ dependency ∈ manifest.dependencies,
        ∃ c ∈ constraints, c.packageName = pyStrip dependency := by
  unfold normalizedDependencyConstraints at h
  obtain ⟨plain, hplain, h⟩ := bind_eq_ok.1 h
  have hstripped : ∀ c ∈ plain, Stripped c.packageName := by
    intro c hc
    obtain ⟨dependency, -, hbuild⟩ := mapM_eq_ok hplain c hc
    exact (stripped_of_build hbuild).2
  have hall := plain_constraints hplain
  split at h
  · obtain ⟨more, hmore, h⟩ := bind_eq_ok.1 h
    cases h
    refine ⟨fun c hc => ?_, fun dependency hd => ?_⟩
    · rcases List.mem_append.1 hc with hc | hc
      · exact hstripped c hc
      · obtain ⟨raw, -, hraw⟩ := mapM_eq_ok hmore c hc
        exact stripped_of_structuredConstraint hraw
    · obtain ⟨c, hc, heq⟩ := hall dependency hd
      exact ⟨c, List.mem_append_left _ hc, heq⟩
  · cases h
    exact ⟨hstripped, hall⟩

theorem described_candidateDescriptor {manifest : RuntimePackageManifest}
    {source : Fields} {defaultCandidateId : Option String}
    {candidate : RuntimePackageCandidateDescriptor}
    (h : candidateDescriptor manifest source defaultCandidateId
      = .ok candidate) : Described candidate := by
  unfold candidateDescriptor at h
  obtain ⟨constraints, hconstraints, h⟩ := bind_eq_ok.1 h
  obtain ⟨hstripped, hplain⟩ :=
    normalizedDependencyConstraints_spec hconstraints
  obtain ⟨compatibility, -, h⟩ := bind_eq_ok.1 h
  obtain ⟨packageName, hname, h⟩ := bind_eq_ok.1 h
  obtain ⟨candidateId, -, h⟩ := bind_eq_ok.1 h
  rw [requireNonEmpty_of_stripped manifest.name_stripped] at hname
  cases hname
  cases h
  refine ⟨?_, ?_, hstripped, fun name => ?_⟩
  · rw [canonicalFirstPartyName_eq]
  · rw [canonicalFirstPartyName_eq]
    exact manifest.name_stripped
  · rw [mem_stableUniqueNames]
    refine ⟨fun hname => ?_, fun hc => ?_⟩
    · obtain ⟨raw, hraw, hstrip⟩ := hname
      rcases List.mem_append.1 hraw with hraw | hraw
      · obtain ⟨c, hc, heq⟩ := hplain raw hraw
        refine ⟨c, hc, heq.trans ?_⟩
        unfold stripOrNone at hstrip
        split at hstrip
        · cases hstrip
        · exact Option.some.inj hstrip
      · obtain ⟨c, hc, rfl⟩ := List.mem_map.1 hraw
        rw [stripOrNone_of_stripped (hstripped c hc)] at hstrip
        exact ⟨c, hc, Option.some.inj hstrip⟩
    · obtain ⟨c, hc, rfl⟩ := hc
      exact ⟨c.packageName,
        List.mem_append_right _ (List.mem_map_of_mem hc),
        stripOrNone_of_stripped (hstripped c hc)⟩

theorem described_of_built {firstPartyManifests : List RuntimePackageManifest}
    {accepted : List AcceptedRuntimePackageRegistration}
    {catalog : RuntimePackageCatalog}
    (h : buildRuntimePackageCatalog firstPartyManifests accepted
      = .ok catalog) : ∀ c ∈ catalog.candidates, Described c := by
  unfold buildRuntimePackageCatalog at h
  obtain ⟨official, hofficial, h⟩ := bind_eq_ok.1 h
  obtain ⟨external, hexternal, h⟩ := bind_eq_ok.1 h
  cases h
  intro c hc
  rcases List.mem_append.1 hc with hc | hc
  · obtain ⟨manifest, -, hbuild⟩ := mapM_eq_ok hofficial c hc
    exact described_candidateDescriptor hbuild
  · obtain ⟨record, -, hbuild⟩ := mapM_eq_ok hexternal c hc
    exact described_candidateDescriptor hbuild

/-- The candidates of a package, in the order the resolver tries them. -/
def candidatesOf (catalogByName : CatalogByName) (packageName : String) :
    List RuntimePackageCandidateDescriptor :=
  (catalogByName.get? packageName).getD []

theorem candidatesOf_groupBy
    (key : RuntimePackageCandidateDescriptor → String)
    (candidates : List RuntimePackageCandidateDescriptor) (name : String) :
    candidatesOf (groupBy key candidates) name
      = candidates.filter fun c => key c = name := by
  unfold candidatesOf groupBy
  induction candidates using List.reverseRecOn with
  | nil => rfl
  | append_singleton candidates candidate ih =>
    rw [List.foldl_append, List.foldl_cons, List.foldl_nil,
      Dict.get?_insert, List.filter_append]
    by_cases h : name = key candidate
    · rw [if_pos h, ← h, ih]
      simp [h]
    · rw [if_neg h, ih]
      simp [Ne.symm h]

theorem mem_candidatesOf {catalog : RuntimePackageCatalog} {name : String}
    {candidate : RuntimePackageCandidateDescriptor} :
    candidate ∈ candidatesOf catalog.byPackageName name
      ↔ candidate ∈ catalog.candidates ∧ candidate.packageName = name := by
  unfold RuntimePackageCatalog.byPackageName
  rw [candidatesOf_groupBy, List.mem_filter, List.mem_insertionSort,
    decide_eq_true_eq]

end WeaveRuntime.Packages
