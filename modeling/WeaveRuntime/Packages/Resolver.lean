/-
The package resolver.

`resolvePackage` settles one package: a package on the stack is a cycle, a
package that is selected must satisfy what is asked of it by now, and for
any other the candidates that match are tried in turn, each with its
dependencies and then with the rest of the whole search (`onSuccess`).
The two maps of the search are one state that is put back between two
candidates (`Backtrack.tryEach`).

# Termination

A call adds its package to the stack before it calls again, and only a
package of the catalog that is not on the stack gets that far, so the
packages of the catalog that are not on the stack measure the recursion.
The continuation needs no measure: it is an action that is already there.

`resolveCandidateDependencies` takes the dependencies that are left, where
the source keeps an index into the list.
-/
import WeaveRuntime.Lib.Backtrack
import WeaveRuntime.Packages.Catalog

namespace WeaveRuntime.Packages

open Lib
open Lib.Method
open Lib.Backtrack
open Python
open Jobs (Fields setField getField)

-- ======== requirements

structure ResolutionRequirement where
  constraint : RuntimePackageDependencyConstraint
  source : String
  requester : String
  requesterCandidateId : Option String

def ResolutionRequirement.build
    (constraint : RuntimePackageDependencyConstraint)
    (source requester : String) (requesterCandidateId : Option String) :
    Except PackageError ResolutionRequirement := do
  let source ← requireNonEmpty source "source"
  let requester ← requireNonEmpty requester "requester"
  return ⟨constraint, source, requester, coerceOptional requesterCandidateId⟩

def ResolutionRequirement.toMetadata (requirement : ResolutionRequirement) :
    Fields :=
  [(.str "source", .str requirement.source),
   (.str "requester", .str requirement.requester),
   (.str "constraint", .dict requirement.constraint.toMetadata)]
    ++ givenText "requester_candidate_id" requirement.requesterCandidateId

def requirementsMetadata (requirements : List ResolutionRequirement) : PyVal :=
  .list (requirements.map fun r => .dict r.toMetadata)

-- ========= diagnostics

inductive DiagnosticSeverity where
  | error | warning
  deriving DecidableEq

structure RuntimePackageResolutionDiagnostic where
  severity : DiagnosticSeverity
  code : String
  message : String
  packageName : Option String
  candidateId : Option String
  details : Fields

/-- The constructor, for an error. -/
def resolutionError (code message packageName : String)
    (candidateId : Option String) (details : Fields) :
    RuntimePackageResolutionDiagnostic :=
  { severity := .error
    code, message
    packageName := stripOrNone packageName
    candidateId := coerceOptional candidateId
    details }

def candidatesMetadata (candidates : List RuntimePackageCandidateDescriptor) :
    Except PackageError PyVal := do
  let metadata ← candidates.mapM (·.toMetadata)
  return .list (metadata.map .dict)

def missingPackageFailure (packageName : String)
    (requirements : List ResolutionRequirement) :
    RuntimePackageResolutionDiagnostic :=
  resolutionError "runtime_package_missing"
    ("Package resolution could not find any candidate for '"
      ++ packageName ++ "'") packageName none
    [(.str "constraints", requirementsMetadata requirements)]

section Failures

variable (lower : String → String)

def constraintFailure (packageName : String)
    (requirements : List ResolutionRequirement)
    (candidates : List RuntimePackageCandidateDescriptor)
    (distribution : String) :
    Except PackageError RuntimePackageResolutionDiagnostic := do
  let compatible ← filterRaising
    (fun candidate => candidate.supportsDistribution distribution) candidates
  if compatible.isEmpty then
    let available ← candidatesMetadata candidates
    return resolutionError "runtime_package_incompatible_candidate"
      ("Package resolution found candidates for '" ++ packageName
        ++ "', but none are compatible with distribution '" ++ distribution
        ++ "'") packageName none
      [(.str "distribution", .str distribution),
       (.str "constraints", requirementsMetadata requirements),
       (.str "available_candidates", available)]
  let perRequirementMatches ← requirements.mapM fun requirement => do
    let found ← filterRaising
      (fun candidate => requirement.constraint.matches lower candidate)
      compatible
    return (requirement, found)
  let available ← candidatesMetadata compatible
  if !requirements.isEmpty
      && perRequirementMatches.all fun e => !e.2.isEmpty then
    return resolutionError "runtime_package_conflicting_constraints"
      ("Package resolution could not satisfy all constraints for '"
        ++ packageName ++ "' with one concrete candidate") packageName none
      [(.str "distribution", .str distribution),
       (.str "constraints", requirementsMetadata requirements),
       (.str "available_candidates", available),
       (.str "constraint_matches", .list (perRequirementMatches.map fun e =>
         .dict
           [(.str "constraint", .dict e.1.toMetadata),
            (.str "matching_candidate_ids",
              .list (e.2.map fun candidate => .str candidate.candidateId))]))]
  return resolutionError "runtime_package_incompatible_candidate"
    ("Package resolution found candidates for '" ++ packageName
      ++ "', but none satisfy the active constraints") packageName none
    [(.str "distribution", .str distribution),
     (.str "constraints", requirementsMetadata requirements),
     (.str "available_candidates", available)]

def candidateSatisfies (candidate : RuntimePackageCandidateDescriptor)
    (requirements : List ResolutionRequirement) (distribution : String) :
    Except PackageError Bool := do
  let supports ← candidate.supportsDistribution distribution
  if supports then
    allRaising
      (fun requirement => requirement.constraint.matches lower candidate)
      requirements
  else return false

end Failures

-- =============== state

/-- The two maps of the search. -/
structure SearchState where
  selected : Dict String RuntimePackageCandidateDescriptor
  constraintsByPackage : Dict String (List ResolutionRequirement)

def SearchState.init : SearchState := ⟨Dict.empty, Dict.empty⟩

/-- What is asked of a package by now. -/
def SearchState.requirements (s : SearchState) (packageName : String) :
    List ResolutionRequirement :=
  (s.constraintsByPackage.get? packageName).getD []

def SearchState.require (s : SearchState) (packageName : String)
    (requirement : ResolutionRequirement) : SearchState :=
  { s with
    constraintsByPackage := s.constraintsByPackage.insert packageName
      (s.requirements packageName ++ [requirement]) }

def SearchState.select (s : SearchState) (packageName : String)
    (candidate : RuntimePackageCandidateDescriptor) : SearchState :=
  { s with selected := s.selected.insert packageName candidate }

/-- What a package that is on the stack is reported as. -/
def cycleFailure (s : SearchState) (packageName : String)
    (stack : List String) : RuntimePackageResolutionDiagnostic :=
  let cycleMembers := stack.drop (stack.idxOf packageName)
  let cyclePath := cycleMembers ++ [packageName]
  resolutionError "runtime_package_cyclic_dependency"
    ("Package resolution detected a cyclic dependency: "
      ++ " -> ".intercalate cyclePath) packageName
    ((s.selected.get? packageName).map (·.candidateId))
    [(.str "cycle_members", .list (cycleMembers.map .str)),
     (.str "cycle_path", .list (cyclePath.map .str)),
     (.str "constraints", requirementsMetadata (s.requirements packageName))]

/-- A cycle starts at the package that is met again. -/
example : (cycleFailure .init "b" ["a", "b", "c"]).message
    = "Package resolution detected a cyclic dependency: b -> c -> b" := by
  decide +kernel

-- ========== the search

abbrev PackageSearch :=
  Search SearchState PackageError RuntimePackageResolutionDiagnostic

abbrev PackageStep :=
  Step SearchState PackageError RuntimePackageResolutionDiagnostic

/-- `_resolve_candidate_dependencies`, over the dependencies that are
left; `resolve` is `_resolve_package` with the stack of this candidate. -/
def resolveCandidateDependencies (resolve : String → PackageStep)
    (candidate : RuntimePackageCandidateDescriptor) :
    List RuntimePackageDependencyConstraint → PackageSearch →
      Method SearchState PackageError
        (Option RuntimePackageResolutionDiagnostic)
  | [], onSuccess => onSuccess
  | dependency :: rest, onSuccess => do
    let requirement ← lift (ResolutionRequirement.build dependency
      "dependency" candidate.packageName (some candidate.candidateId))
    write fun s => s.require dependency.packageName requirement
    resolve dependency.packageName
      (resolveCandidateDependencies resolve candidate rest onSuccess)

/-- A search that ends with the failure of a package's constraints. -/
def constraintFailed (lower : String → String) (packageName : String)
    (requirements : List ResolutionRequirement)
    (candidates : List RuntimePackageCandidateDescriptor)
    (distribution : String) :
    Method SearchState PackageError
      (Option RuntimePackageResolutionDiagnostic) := do
  let failure ← lift (constraintFailure lower packageName requirements
    candidates distribution)
  return some failure

/-- The packages of the catalog that are not on the stack. -/
def unvisited (catalogByName : CatalogByName) (stack : List String) : Nat :=
  (catalogByName.keys.filter fun name => name ∉ stack).length

theorem unvisited_lt {catalogByName : CatalogByName} {stack : List String}
    {packageName : String} (hcandidates : candidatesOf catalogByName
      packageName ≠ []) (hstack : packageName ∉ stack) :
    unvisited catalogByName (stack ++ [packageName])
      < unvisited catalogByName stack := by
  have hmem : packageName ∈ catalogByName.keys := by
    by_contra hnot
    refine hcandidates ?_
    rw [candidatesOf, Dict.get?_eq_none_iff.2 hnot]
    rfl
  have hsplit : (catalogByName.keys.filter fun name =>
      decide (name ∉ stack ++ [packageName]))
      = (catalogByName.keys.filter fun name => decide (name ∉ stack)).filter
        fun name => decide (name ≠ packageName) := by
    rw [List.filter_filter]
    refine List.filter_congr fun name _ => ?_
    simp [and_comm]
  unfold unvisited
  rw [hsplit]
  refine List.length_filter_lt_length_iff_exists.2
    ⟨packageName, ?_, by simp⟩
  exact List.mem_filter.2 ⟨hmem, decide_eq_true hstack⟩

section Search

variable (lower : String → String) (distribution : String)
  (catalogByName : CatalogByName)

def resolvePackage (packageName : String) (stack : List String)
    (onSuccess : PackageSearch) :
    Method SearchState PackageError
      (Option RuntimePackageResolutionDiagnostic) :=
  if hstack : packageName ∈ stack then do
    let s ← read id
    return some (cycleFailure s packageName stack)
  else do
    let requirements ← read (·.requirements packageName)
    let existing ← read (·.selected.get? packageName)
    let candidates := candidatesOf catalogByName packageName
    match existing with
    | some existing =>
      let satisfies ← lift
        (candidateSatisfies lower existing requirements distribution)
      if satisfies then onSuccess
      else
        constraintFailed lower packageName requirements candidates
          distribution
    | none =>
      if hcandidates : candidatesOf catalogByName packageName = [] then
        return some (missingPackageFailure packageName requirements)
      else
        let fitting ← lift (filterRaising (fun candidate =>
          candidateSatisfies lower candidate requirements distribution)
            candidates)
        if fitting.isEmpty then
          constraintFailed lower packageName requirements candidates
            distribution
        else
          tryEach (fun candidate => do
            write fun s => s.select packageName candidate
            resolveCandidateDependencies
              (fun dependency onResolved => resolvePackage dependency
                (stack ++ [packageName]) onResolved)
              candidate candidate.dependencyConstraints onSuccess)
            [] fitting
termination_by unvisited catalogByName stack
decreasing_by exact unvisited_lt hcandidates hstack

section Equations

variable {lower distribution catalogByName} {packageName : String}
  {stack : List String} {s : SearchState}

theorem run_resolvePackage_cyclic (hstack : packageName ∈ stack)
    (k : PackageSearch) :
    (resolvePackage lower distribution catalogByName packageName stack
      k).run s = (.ok (some (cycleFailure s packageName stack)), s) := by
  unfold resolvePackage
  rw [dif_pos hstack]
  rfl

theorem run_resolvePackage_existing (hstack : packageName ∉ stack)
    {existing : RuntimePackageCandidateDescriptor}
    (hexisting : s.selected.get? packageName = some existing)
    (k : PackageSearch) :
    (resolvePackage lower distribution catalogByName packageName stack
      k).run s
      = (lift (candidateSatisfies lower existing
            (s.requirements packageName) distribution) >>= fun satisfies =>
          if satisfies then k
          else constraintFailed lower packageName (s.requirements packageName)
            (candidatesOf catalogByName packageName) distribution).run s := by
  conv_lhs => unfold resolvePackage
  rw [dif_neg hstack, run_read_bind, run_read_bind, hexisting]

theorem run_resolvePackage_missing (hstack : packageName ∉ stack)
    (hnew : s.selected.get? packageName = none)
    (hcandidates : candidatesOf catalogByName packageName = [])
    (k : PackageSearch) :
    (resolvePackage lower distribution catalogByName packageName stack
      k).run s = (.ok (some (missingPackageFailure packageName
        (s.requirements packageName))), s) := by
  conv_lhs => unfold resolvePackage
  rw [dif_neg hstack, run_read_bind, run_read_bind, hnew]
  dsimp only
  rw [dif_pos hcandidates]
  rfl

/-- One candidate of a package that is not selected: it is selected, and
its dependencies are resolved. -/
def tryCandidate (lower : String → String) (distribution : String)
    (catalogByName : CatalogByName) (packageName : String)
    (stack : List String) (candidate : RuntimePackageCandidateDescriptor)
    (onSuccess : PackageSearch) :
    Method SearchState PackageError
      (Option RuntimePackageResolutionDiagnostic) := do
  write fun s => s.select packageName candidate
  resolveCandidateDependencies
    (fun dependency onResolved => resolvePackage lower distribution
      catalogByName dependency (stack ++ [packageName]) onResolved)
    candidate candidate.dependencyConstraints onSuccess

theorem run_resolvePackage_fresh (hstack : packageName ∉ stack)
    (hnew : s.selected.get? packageName = none)
    (hcandidates : candidatesOf catalogByName packageName ≠ [])
    (k : PackageSearch) :
    (resolvePackage lower distribution catalogByName packageName stack
      k).run s
      = (lift (filterRaising (fun candidate => candidateSatisfies lower
            candidate (s.requirements packageName) distribution)
          (candidatesOf catalogByName packageName)) >>= fun fitting =>
          if fitting.isEmpty then
            constraintFailed lower packageName (s.requirements packageName)
              (candidatesOf catalogByName packageName) distribution
          else tryEach (fun candidate => tryCandidate lower distribution
            catalogByName packageName stack candidate k) [] fitting).run
        s := by
  conv_lhs => unfold resolvePackage
  rw [dif_neg hstack, run_read_bind, run_read_bind, hnew]
  dsimp only
  rw [dif_neg hcandidates]
  rfl

end Equations

def resolveRequestedPackages : List String →
    Method SearchState PackageError
      (Option RuntimePackageResolutionDiagnostic)
  | [] => pure none
  | packageName :: rest =>
    resolvePackage lower distribution catalogByName packageName []
      (resolveRequestedPackages rest)

end Search

-- ============ ordering

/-- What the visits of `order_package_manifests` have done. -/
structure VisitState where
  ordered : List RuntimePackageManifest
  visited : List String

section Ordering

variable (requested : List String)
  (manifestCatalog : Dict String RuntimePackageManifest)

/-- The manifests that are not being visited. -/
def unopened (visiting : List String) : Nat :=
  (manifestCatalog.keys.filter fun name => name ∉ visiting).length

theorem unopened_lt {visiting : List String} {name : String}
    (hname : name ∈ manifestCatalog.keys) (hvisiting : name ∉ visiting) :
    unopened manifestCatalog (name :: visiting)
      < unopened manifestCatalog visiting := by
  have hsplit : (manifestCatalog.keys.filter fun other =>
      decide (other ∉ name :: visiting))
      = (manifestCatalog.keys.filter fun other =>
          decide (other ∉ visiting)).filter fun other =>
            decide (other ≠ name) := by
    rw [List.filter_filter]
    refine List.filter_congr fun other _ => ?_
    simp
  unfold unopened
  rw [hsplit]
  refine List.length_filter_lt_length_iff_exists.2 ⟨name, ?_, by simp⟩
  exact List.mem_filter.2 ⟨hname, decide_eq_true hvisiting⟩

def visit (visiting : List String) (name : String) :
    Method VisitState PackageError Unit := do
  let visited ← read (·.visited)
  if name ∈ visited then
    return ()
  else if hvisiting : name ∈ visiting then
    raise (.valueError ("Cyclic package dependency detected at '" ++ name
      ++ "'"))
  else
    match hmanifest : manifestCatalog.get? name with
    | none => raise (.keyError ("Unknown runtime package manifest '" ++ name
        ++ "'"))
    | some manifest =>
      manifest.dependencies.forM fun dependency => do
        if dependency ∉ requested then
          raise (.valueError ("Package '" ++ name
            ++ "' requires dependency '" ++ dependency
            ++ "' to be selected"))
        else
          visit (name :: visiting) dependency
      write fun s =>
        ⟨s.ordered ++ [manifest], s.visited ++ [name]⟩
termination_by unopened manifestCatalog visiting
decreasing_by
  exact unopened_lt manifestCatalog
    (Dict.mem_keys_iff.2 ⟨manifest, hmanifest⟩) hvisiting

end Ordering

def orderPackageManifests (packageNames : List String)
    (manifestCatalog : Dict String RuntimePackageManifest) :
    Except PackageError (List RuntimePackageManifest) :=
  let requested := packageNames.map canonicalFirstPartyName
  let visits := requested.forM fun name =>
    visit requested manifestCatalog [] name
  match visits.run ⟨[], []⟩ with
  | (.ok (), s) => .ok s.ordered
  | (.error e, _) => .error e

-- =========== the graph

structure RuntimePackageResolutionReport where
  request : RuntimePackageRequest
  catalog : RuntimePackageCatalog
  resolvedCandidates : List RuntimePackageCandidateDescriptor
  resolvedManifests : List RuntimePackageManifest
  diagnostics : List RuntimePackageResolutionDiagnostic

def RuntimePackageResolutionReport.success
    (report : RuntimePackageResolutionReport) : Bool :=
  report.diagnostics.isEmpty

/-- The diagnostic of a candidate id that occurs more than once. -/
def duplicateDiagnostic (packageName candidateId : String)
    (entries : List RuntimePackageCandidateDescriptor) :
    Except PackageError (List RuntimePackageResolutionDiagnostic) :=
  if entries.length < 2 then .ok []
  else do
    let duplicates ← candidatesMetadata entries
    return [resolutionError "runtime_package_duplicate_candidate_id"
      ("Package catalog defines duplicate candidate_id '" ++ candidateId
        ++ "' for '" ++ packageName ++ "'") packageName (some candidateId)
      [(.str "duplicate_candidates", duplicates)]]

def catalogDiagnostics (catalogByName : CatalogByName) :
    Except PackageError (List RuntimePackageResolutionDiagnostic) := do
  let diagnostics ← catalogByName.entries.mapM fun e => do
    let found ← (groupBy (·.candidateId) e.2).entries.mapM fun d =>
      duplicateDiagnostic e.1 d.1 d.2
    return found.flatten
  return diagnostics.flatten

def requireRequested (s : SearchState) (packageName : String) :
    Except PackageError SearchState := do
  let constraint ← RuntimePackageDependencyConstraint.named packageName
    "request"
  let requirement ← ResolutionRequirement.build constraint "runtime_request"
    "RuntimeConfig.requested_packages" none
  return s.require packageName requirement

def selectedManifests
    (selected : Dict String RuntimePackageCandidateDescriptor) :
    Dict String RuntimePackageManifest where
  entries := selected.entries.map fun e => (e.1, e.2.manifest)
  nodup := by
    rw [List.map_map]
    exact selected.nodup

/-- What is reported of a search that succeeded. -/
def resolvedReport (request : RuntimePackageRequest)
    (catalog : RuntimePackageCatalog)
    (selected : Dict String RuntimePackageCandidateDescriptor) :
    Except PackageError RuntimePackageResolutionReport := do
  let orderedManifests ← orderPackageManifests selected.keys
    (selectedManifests selected)
  let orderedCandidates ← orderedManifests.mapM fun manifest =>
    orRaise (selected.get? manifest.name) (PackageError.keyError manifest.name)
  return ⟨request, catalog, orderedCandidates, orderedManifests, []⟩

def searchGraph (lower : String → String) (request : RuntimePackageRequest)
    (catalog : RuntimePackageCatalog) (initial : SearchState) :
    Except PackageError (Option RuntimePackageResolutionDiagnostic)
      × SearchState :=
  (resolveRequestedPackages lower request.distribution catalog.byPackageName
    request.requestedPackages).run initial

def resolveRuntimePackageGraph (lower : String → String)
    (request : RuntimePackageRequest) (catalog : RuntimePackageCatalog) :
    Except PackageError RuntimePackageResolutionReport := do
  let diagnostics ← catalogDiagnostics catalog.byPackageName
  if !diagnostics.isEmpty then
    return ⟨request, catalog, [], [], diagnostics⟩
  let initial ← request.requestedPackages.foldlM requireRequested .init
  match searchGraph lower request catalog initial with
  | (.error e, _) => .error e
  | (.ok (some failure), _) => return ⟨request, catalog, [], [], [failure]⟩
  | (.ok none, s) => resolvedReport request catalog s.selected

end WeaveRuntime.Packages
