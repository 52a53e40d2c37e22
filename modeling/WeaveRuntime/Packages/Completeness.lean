/-
Termination and completeness of package resolution
(`resolution_complete`).

That the search ends is in its definition. What is left of termination is
that it ends with a report: a test that reads a version or a compatibility
mapping may raise, and so may printing a candidate in a diagnostic, so the
tests the search can come to must be readable (`Readable`).

# The argument

Fix a solution (`Solution`). The search agrees with it (`Agrees`) while it
has selected nothing else, and asked for nothing the solution does not
satisfy. From a state that agrees, a package of the solution is never on
the stack, because the solution has no cycle; what is selected for it
satisfies what is asked; and otherwise the solution's candidate is among
the ones that are tried. What the candidates before it do does not matter,
as the state is put back between two (`Backtrack.finds_tryEach`).
-/
import WeaveRuntime.Lib.Graph
import WeaveRuntime.Packages.Soundness

namespace WeaveRuntime.Packages

open Lib
open Lib.Method
open Lib.Backtrack
open Python

-- ========== statements

def DistinctIds (catalog : RuntimePackageCatalog) : Prop :=
  catalog.candidates.Pairwise fun a b =>
    a.packageName = b.packageName → a.candidateId ≠ b.candidateId

def Relevant (request : RuntimePackageRequest)
    (catalog : RuntimePackageCatalog)
    (candidate : RuntimePackageCandidateDescriptor) : Prop :=
  candidate ∈ catalog.candidates
    ∧ Reached request (· ∈ catalog.candidates) candidate.packageName

/-- No requested package is blank, and what the request can come to can be
read: which distributions a candidate supports, what a diagnostic says of
it, and whether a dependency of another one matches it. -/
structure Readable (lower : String → String)
    (request : RuntimePackageRequest) (catalog : RuntimePackageCatalog) :
    Prop where
  named : ∀ name ∈ request.requestedPackages, pyStrip name ≠ ""
  supports : ∀ c, Relevant request catalog c →
    ∃ b, c.supportsDistribution request.distribution = .ok b
  printed : ∀ c, Relevant request catalog c →
    ∃ fields, c.toMetadata = .ok fields
  compared : ∀ c, Relevant request catalog c →
    c.supportsDistribution request.distribution = .ok true →
    ∀ c', Relevant request catalog c' → ∀ d ∈ c'.dependencyConstraints,
      ∃ b, d.matches lower c = .ok b

def Depends (pick : String → Option RuntimePackageCandidateDescriptor)
    (name needed : String) : Prop :=
  ∃ c, pick name = some c
    ∧ ∃ d ∈ c.dependencyConstraints, d.packageName = needed

/-- An assignment of candidates to packages that a request asks for. -/
structure Solution (lower : String → String)
    (request : RuntimePackageRequest) (catalog : RuntimePackageCatalog)
    (pick : String → Option RuntimePackageCandidateDescriptor) : Prop where
  requested : ∀ name ∈ request.requestedPackages, ∃ c, pick name = some c
  fromCatalog : ∀ name c, pick name = some c →
    c ∈ catalog.candidates ∧ c.packageName = name
  supported : ∀ name c, pick name = some c →
    c.supportsDistribution request.distribution = .ok true
  satisfied : ∀ name c, pick name = some c → ∀ d ∈ c.dependencyConstraints,
    ∃ c', pick d.packageName = some c' ∧ d.matches lower c' = .ok true
  acyclic : Graph.Acyclic (Depends pick)

-- ======= what is known

section Search

variable {lower : String → String} {request : RuntimePackageRequest}
  {catalog : RuntimePackageCatalog}

/-- A requirement can be tested on every candidate that comes up. -/
def Testable (lower : String → String) (request : RuntimePackageRequest)
    (catalog : RuntimePackageCatalog) (r : ResolutionRequirement) : Prop :=
  ∀ c, Relevant request catalog c →
    c.supportsDistribution request.distribution = .ok true →
      ∃ b, r.constraint.matches lower c = .ok b

structure Known (lower : String → String) (request : RuntimePackageRequest)
    (catalog : RuntimePackageCatalog) (s : SearchState) : Prop where
  selected : ∀ name c, s.selected.get? name = some c →
    Relevant request catalog c
  required : ∀ name, ∀ r ∈ s.requirements name,
    Testable lower request catalog r

variable {c : RuntimePackageCandidateDescriptor} {packageName : String}
  {s : SearchState}

theorem Known.require (h : Known lower request catalog s)
    (packageName : String) {r : ResolutionRequirement}
    (hr : Testable lower request catalog r) :
    Known lower request catalog (s.require packageName r) := by
  refine ⟨h.selected, fun name r' hr' => ?_⟩
  rcases mem_requirements_require.1 hr' with hr' | ⟨-, rfl⟩
  · exact h.required name r' hr'
  · exact hr

theorem Known.select (h : Known lower request catalog s)
    (packageName : String) (hc : Relevant request catalog c) :
    Known lower request catalog (s.select packageName c) := by
  refine ⟨fun name c' hc' => ?_, h.required⟩
  have hinsert : (s.selected.insert packageName c).get? name = some c' := hc'
  rw [Dict.get?_insert] at hinsert
  split at hinsert
  · cases hinsert
    exact hc
  · exact h.selected name c' hinsert

theorem exists_candidateSatisfies (hreadable : Readable lower request catalog)
    {requirements : List ResolutionRequirement}
    (hrequired : ∀ r ∈ requirements, Testable lower request catalog r)
    (hc : Relevant request catalog c) :
    ∃ b, candidateSatisfies lower c requirements request.distribution
      = .ok b := by
  obtain ⟨supports, hsupports⟩ := hreadable.supports c hc
  unfold candidateSatisfies
  rw [hsupports, ok_bind]
  cases supports with
  | false => exact ⟨false, rfl⟩
  | true =>
    rw [if_pos rfl]
    exact exists_allRaising fun r hr => hrequired r hr c hc hsupports

theorem exists_candidatesMetadata
    {candidates : List RuntimePackageCandidateDescriptor}
    (h : ∀ c ∈ candidates, ∃ fields, c.toMetadata = .ok fields) :
    ∃ v, candidatesMetadata candidates = .ok v := by
  obtain ⟨metadata, hmetadata⟩ := exists_mapM h
  unfold candidatesMetadata
  rw [hmetadata]
  exact ⟨_, rfl⟩

theorem exists_constraintFailure (hreadable : Readable lower request catalog)
    {requirements : List ResolutionRequirement}
    (hrequired : ∀ r ∈ requirements, Testable lower request catalog r)
    {candidates : List RuntimePackageCandidateDescriptor}
    (hcandidates : ∀ c ∈ candidates, Relevant request catalog c) :
    ∃ failure, constraintFailure lower packageName requirements candidates
      request.distribution = .ok failure := by
  obtain ⟨compatible, hcompatible⟩ := exists_filterRaising
    fun c hc => hreadable.supports c (hcandidates c hc)
  have hsub : ∀ c ∈ compatible, Relevant request catalog c
      ∧ c.supportsDistribution request.distribution = .ok true := by
    intro c hc
    obtain ⟨hmem, hsupports⟩ := (mem_of_filterRaising hcompatible c).1 hc
    exact ⟨hcandidates c hmem, hsupports⟩
  obtain ⟨all, hall⟩ : ∃ v, candidatesMetadata candidates = .ok v :=
    exists_candidatesMetadata fun c hc =>
      hreadable.printed c (hcandidates c hc)
  obtain ⟨available, havailable⟩ :
      ∃ v, candidatesMetadata compatible = .ok v :=
    exists_candidatesMetadata fun c hc => hreadable.printed c (hsub c hc).1
  obtain ⟨perRequirement, hperRequirement⟩ : ∃ l, (requirements.mapM
      fun requirement => do
        let found ← filterRaising (fun candidate =>
          requirement.constraint.matches lower candidate) compatible
        return (requirement, found)) = .ok l := by
    refine exists_mapM fun r hr => ?_
    obtain ⟨found, hfound⟩ := exists_filterRaising fun c hc =>
      hrequired r hr c (hsub c hc).1 (hsub c hc).2
    exact ⟨(r, found), by rw [hfound]; rfl⟩
  unfold constraintFailure
  rw [hcompatible, ok_bind]
  by_cases hempty : compatible.isEmpty = true
  · rw [if_pos hempty, hall]
    exact ⟨_, rfl⟩
  · rw [if_neg hempty, hperRequirement, ok_bind, havailable, ok_bind]
    split
    · exact ⟨_, rfl⟩
    · exact ⟨_, rfl⟩

-- ===== raising nothing

theorem testable_of_build (hreadable : Readable lower request catalog)
    {candidate : RuntimePackageCandidateDescriptor}
    (hcandidate : Relevant request catalog candidate)
    (hdescribed : Described candidate)
    {dependency : RuntimePackageDependencyConstraint}
    (hdependency : dependency ∈ candidate.dependencyConstraints) :
    ∃ r, ResolutionRequirement.build dependency "dependency"
        candidate.packageName (some candidate.candidateId) = .ok r
      ∧ r.constraint = dependency ∧ Testable lower request catalog r := by
  have hsource : requireNonEmpty "dependency" "source" = .ok "dependency" :=
    requireNonEmpty_eq_ok.2 ⟨by decide, by decide⟩
  have hrequester :=
    requireNonEmpty_of_stripped hdescribed.stripped "requester"
  refine ⟨⟨dependency, "dependency", candidate.packageName,
    coerceOptional (some candidate.candidateId)⟩, ?_, rfl, fun c hc hs => ?_⟩
  · unfold ResolutionRequirement.build
    rw [hsource, ok_bind, hrequester]
    rfl
  · exact hreadable.compared c hc hs candidate hcandidate dependency
      hdependency

theorem relevant_of_mem
    (hreached : Reached request (· ∈ catalog.candidates) packageName)
    (hc : c ∈ candidatesOf catalog.byPackageName packageName) :
    Relevant request catalog c := by
  obtain ⟨hmem, hname⟩ := mem_candidatesOf.1 hc
  refine ⟨hmem, ?_⟩
  rwa [hname]

theorem exists_fitting (hreadable : Readable lower request catalog)
    (hs : Known lower request catalog s)
    (hreached : Reached request (· ∈ catalog.candidates) packageName) :
    ∃ fitting, filterRaising (fun candidate => candidateSatisfies lower
        candidate (s.requirements packageName) request.distribution)
        (candidatesOf catalog.byPackageName packageName) = .ok fitting
      ∧ ∀ c, c ∈ fitting
        ↔ c ∈ candidatesOf catalog.byPackageName packageName
          ∧ candidateSatisfies lower c (s.requirements packageName)
            request.distribution = .ok true := by
  have htests : ∀ c ∈ candidatesOf catalog.byPackageName packageName,
      ∃ b, candidateSatisfies lower c (s.requirements packageName)
        request.distribution = .ok b := fun c hc =>
    exists_candidateSatisfies hreadable
      (fun r hr => hs.required packageName r hr) (relevant_of_mem hreached hc)
  obtain ⟨fitting, hfitting⟩ := exists_filterRaising htests
  exact ⟨fitting, hfitting, mem_of_filterRaising hfitting⟩

theorem returns_constraintFailed (hreadable : Readable lower request catalog)
    (hs : Known lower request catalog s)
    (hreached : Reached request (· ∈ catalog.candidates) packageName) :
    Returns (constraintFailed lower packageName (s.requirements packageName)
      (candidatesOf catalog.byPackageName packageName)
      request.distribution) s := by
  obtain ⟨failure, hfailure⟩ : ∃ failure, constraintFailure lower packageName
      (s.requirements packageName)
      (candidatesOf catalog.byPackageName packageName) request.distribution
        = .ok failure :=
    exists_constraintFailure hreadable
      (fun r hr => hs.required packageName r hr)
      fun c hc => relevant_of_mem hreached hc
  refine ⟨some failure, ?_⟩
  unfold constraintFailed
  rw [hfailure]
  rfl

section Steps

variable (hreadable : Readable lower request catalog)
  (hdescribed : ∀ c ∈ catalog.candidates, Described c)

include hreadable hdescribed

theorem calm_resolveCandidateDependencies {resolve : String → PackageStep}
    (hresolve : ∀ packageName s, Known lower request catalog s →
      Reached request (· ∈ catalog.candidates) packageName →
      Calm (Known lower request catalog) (resolve packageName) s)
    {candidate : RuntimePackageCandidateDescriptor}
    (hcandidate : Relevant request catalog candidate)
    {rest : List RuntimePackageDependencyConstraint}
    (hrest : ∀ d ∈ rest, d ∈ candidate.dependencyConstraints)
    {s : SearchState} (hs : Known lower request catalog s) :
    Calm (Known lower request catalog)
      (resolveCandidateDependencies resolve candidate rest) s := by
  induction rest generalizing s with
  | nil => exact calm_id hs
  | cons dependency rest ih =>
    have hdependency := hrest dependency List.mem_cons_self
    obtain ⟨r, hbuild, -, htestable⟩ := testable_of_build hreadable
      hcandidate (hdescribed candidate hcandidate.1) hdependency
    refine Calm.of_run ?_ (run_resolveCandidateDependencies hbuild)
    refine (hresolve dependency.packageName _ (hs.require _ htestable)
      (.dependency hcandidate.1 hcandidate.2 hdependency)).comp
      fun u hu => ?_
    exact ih (fun d hd => hrest d (List.mem_cons_of_mem _ hd)) hu

theorem calm_tryCandidate {stack : List String} {packageName : String}
    (hresolve : ∀ name s, Known lower request catalog s →
      Reached request (· ∈ catalog.candidates) name →
      Calm (Known lower request catalog)
        (resolvePackage lower request.distribution catalog.byPackageName
          name (stack ++ [packageName])) s)
    {candidate : RuntimePackageCandidateDescriptor}
    (hcandidate : Relevant request catalog candidate)
    {s : SearchState} (hs : Known lower request catalog s) :
    Calm (Known lower request catalog)
      (tryCandidate lower request.distribution catalog.byPackageName
        packageName stack candidate) s :=
  Calm.of_run (calm_resolveCandidateDependencies hreadable hdescribed
    hresolve hcandidate (fun _ hd => hd)
    (hs.select packageName hcandidate)) fun _ => rfl

theorem calm_resolvePackage :
    ∀ (left : Nat) (stack : List String),
      unvisited catalog.byPackageName stack = left →
      ∀ packageName s, Known lower request catalog s →
        Reached request (· ∈ catalog.candidates) packageName →
        Calm (Known lower request catalog)
          (resolvePackage lower request.distribution catalog.byPackageName
            packageName stack) s := by
  intro left
  induction left using Nat.strongRecOn with
  | ind left ih =>
    intro stack hleft packageName s hs hreached
    by_cases hstack : packageName ∈ stack
    · exact (calm_pure _).of_run fun k =>
        run_resolvePackage_cyclic hstack k
    cases hexisting : s.selected.get? packageName with
    | some existing =>
      obtain ⟨satisfies, hsatisfies⟩ := exists_candidateSatisfies
        hreadable (fun r hr => hs.required packageName r hr)
        (hs.selected packageName existing hexisting)
      intro k hk
      unfold Returns
      rw [run_resolvePackage_existing hstack hexisting, hsatisfies,
        run_lift_ok_bind]
      cases satisfies with
      | true => exact hk s hs
      | false => exact returns_constraintFailed hreadable hs hreached
    | none =>
      by_cases hcandidates :
          candidatesOf catalog.byPackageName packageName = []
      · exact (calm_pure _).of_run fun k =>
          run_resolvePackage_missing hstack hexisting hcandidates k
      obtain ⟨fitting, hfitting, hmem⟩ :=
        exists_fitting hreadable hs hreached
      intro k hk
      unfold Returns
      rw [run_resolvePackage_fresh hstack hexisting hcandidates,
        hfitting, run_lift_ok_bind]
      by_cases hempty : fitting.isEmpty = true
      · rw [if_pos hempty]
        exact returns_constraintFailed hreadable hs hreached
      · rw [if_neg hempty]
        refine calm_tryEach (I := Known lower request catalog)
          (fun c hc => ?_) k hk
        have hlt := unvisited_lt hcandidates hstack
        exact calm_tryCandidate hreadable hdescribed
          (fun name u hu hname => ih _ (hleft ▸ hlt) _ rfl name u hu
            hname) (relevant_of_mem hreached ((hmem c).1 hc).1) hs

end Steps

-- ============= finding

/-- What the search has selected is the solution's, and the solution
satisfies what is asked for. -/
structure Agrees (lower : String → String)
    (pick : String → Option RuntimePackageCandidateDescriptor)
    (s : SearchState) : Prop where
  selected : ∀ name c, s.selected.get? name = some c → pick name = some c
  satisfied : ∀ name, ∀ r ∈ s.requirements name, ∀ c, pick name = some c →
    r.constraint.matches lower c = .ok true

def OnTheWay (lower : String → String) (request : RuntimePackageRequest)
    (catalog : RuntimePackageCatalog)
    (pick : String → Option RuntimePackageCandidateDescriptor)
    (s : SearchState) : Prop :=
  Known lower request catalog s ∧ Agrees lower pick s

section Finding

variable {pick : String → Option RuntimePackageCandidateDescriptor}

variable {packageName : String} {s : SearchState}

theorem Agrees.require (h : Agrees lower pick s) {r : ResolutionRequirement}
    (hr : ∀ c, pick packageName = some c →
      r.constraint.matches lower c = .ok true) :
    Agrees lower pick (s.require packageName r) := by
  refine ⟨h.selected, fun name r' hr' c hc => ?_⟩
  rcases mem_requirements_require.1 hr' with hr' | ⟨rfl, rfl⟩
  · exact h.satisfied name r' hr' c hc
  · exact hr c hc

theorem Agrees.select (h : Agrees lower pick s)
    {c : RuntimePackageCandidateDescriptor} (hc : pick packageName = some c) :
    Agrees lower pick (s.select packageName c) := by
  refine ⟨fun name c' hc' => ?_, h.satisfied⟩
  have hinsert : (s.selected.insert packageName c).get? name = some c' := hc'
  rw [Dict.get?_insert] at hinsert
  split at hinsert
  · next heq =>
    cases hinsert
    rw [heq, hc]
  · exact h.selected name c' hinsert

variable (hreadable : Readable lower request catalog)
  (hdescribed : ∀ c ∈ catalog.candidates, Described c)
  (hsolution : Solution lower request catalog pick)

include hreadable hdescribed hsolution

/-- The dependencies of the solution's candidate, where the packages under
it are found as stated. -/
theorem finds_resolveCandidateDependencies {resolve : String → PackageStep}
    {candidate : RuntimePackageCandidateDescriptor}
    (hcandidate : Relevant request catalog candidate)
    (hpick : pick packageName = some candidate)
    (hcalm : ∀ name s, Known lower request catalog s →
      Reached request (· ∈ catalog.candidates) name →
      Calm (Known lower request catalog) (resolve name) s)
    (hresolve : ∀ needed s, OnTheWay lower request catalog pick s →
      Reached request (· ∈ catalog.candidates) needed →
      Depends pick packageName needed → (∃ c, pick needed = some c) →
      Finds (Known lower request catalog) (resolve needed) s
        (OnTheWay lower request catalog pick))
    {rest : List RuntimePackageDependencyConstraint}
    (hrest : ∀ d ∈ rest, d ∈ candidate.dependencyConstraints)
    (hs : OnTheWay lower request catalog pick s) :
    Finds (Known lower request catalog)
      (resolveCandidateDependencies resolve candidate rest) s
      (OnTheWay lower request catalog pick) := by
  induction rest generalizing s with
  | nil => exact finds_id hs
  | cons dependency rest ih =>
    have hdependency := hrest dependency List.mem_cons_self
    have hleft : ∀ d ∈ rest, d ∈ candidate.dependencyConstraints :=
      fun d hd => hrest d (List.mem_cons_of_mem _ hd)
    obtain ⟨r, hbuild, hconstraint, htestable⟩ := testable_of_build
      hreadable hcandidate (hdescribed candidate hcandidate.1) hdependency
    obtain ⟨c', hpick', hmatches⟩ := hsolution.satisfied packageName
      candidate hpick dependency hdependency
    have hasked : OnTheWay lower request catalog pick
        (s.require dependency.packageName r) := by
      refine ⟨hs.1.require _ htestable, hs.2.require fun c hc => ?_⟩
      rw [hpick'] at hc
      cases hc
      rwa [hconstraint]
    refine Finds.of_run ?_ (run_resolveCandidateDependencies hbuild)
    refine (hresolve dependency.packageName _ hasked
      (.dependency hcandidate.1 hcandidate.2 hdependency)
      ⟨candidate, hpick, dependency, hdependency, rfl⟩
      ⟨c', hpick'⟩).comp (fun u hu => ?_) fun u hu => ih hleft hu
    exact calm_resolveCandidateDependencies hreadable hdescribed hcalm
      hcandidate hleft hu

/-- A package of the solution is found. The stack is a chain of packages
that depend on it. -/
theorem finds_resolvePackage :
    ∀ (left : Nat) (stack : List String),
      unvisited catalog.byPackageName stack = left →
      ∀ packageName s, OnTheWay lower request catalog pick s →
        Reached request (· ∈ catalog.candidates) packageName →
        (∀ m ∈ stack, Relation.TransGen (Depends pick) m packageName) →
        (∃ c, pick packageName = some c) →
        Finds (Known lower request catalog)
          (resolvePackage lower request.distribution catalog.byPackageName
            packageName stack) s (OnTheWay lower request catalog pick) := by
  intro left
  induction left using Nat.strongRecOn with
  | ind left ih =>
    intro stack hleft packageName s hs hreached hchain hpicked
    obtain ⟨c, hpick⟩ := hpicked
    have hstack : packageName ∉ stack := fun hmem =>
      hsolution.acyclic packageName (hchain packageName hmem)
    obtain ⟨hlisted, hname⟩ := hsolution.fromCatalog packageName c hpick
    have hmatches : candidateSatisfies lower c (s.requirements packageName)
        request.distribution = .ok true :=
      candidateSatisfies_eq_true.2 ⟨hsolution.supported _ c hpick,
        fun r hr => hs.2.satisfied packageName r hr c hpick⟩
    cases hexisting : s.selected.get? packageName with
    | some existing =>
      have hsame : existing = c := by
        have h := hs.2.selected packageName existing hexisting
        rw [hpick] at h
        exact (Option.some.inj h).symm
      refine (finds_id hs).of_run fun k => ?_
      rw [run_resolvePackage_existing hstack hexisting, hsame, hmatches,
        run_lift_ok_bind, if_pos rfl]
    | none =>
      have hmine : c ∈ candidatesOf catalog.byPackageName packageName :=
        mem_candidatesOf.2 ⟨hlisted, hname⟩
      have hcandidates :
          candidatesOf catalog.byPackageName packageName ≠ [] :=
        List.ne_nil_of_mem hmine
      obtain ⟨fitting, hfitting, hmem⟩ :=
        exists_fitting hreadable hs.1 hreached
      have hfits : c ∈ fitting := (hmem c).2 ⟨hmine, hmatches⟩
      have hne : ¬ fitting.isEmpty = true := by
        rw [List.isEmpty_iff]
        exact List.ne_nil_of_mem hfits
      have hlt := unvisited_lt hcandidates hstack
      have hcalm : ∀ name u, Known lower request catalog u →
          Reached request (· ∈ catalog.candidates) name →
          Calm (Known lower request catalog)
            (resolvePackage lower request.distribution
              catalog.byPackageName name (stack ++ [packageName])) u :=
        fun name u hu hname => calm_resolvePackage hreadable hdescribed _
          _ rfl name u hu hname
      have hfinds : Finds (Known lower request catalog)
          (tryCandidate lower request.distribution catalog.byPackageName
            packageName stack c) s
          (OnTheWay lower request catalog pick) := by
        have hselected : OnTheWay lower request catalog pick
            (s.select packageName c) :=
          ⟨hs.1.select packageName (relevant_of_mem hreached hmine),
            hs.2.select hpick⟩
        refine Finds.of_run (finds_resolveCandidateDependencies hreadable
          hdescribed hsolution (relevant_of_mem hreached hmine) hpick
          hcalm (fun needed u hu hneeded hdepends hpicked => ?_)
          (fun _ hd => hd) hselected) fun k => rfl
        refine ih _ (hleft ▸ hlt) _ rfl needed u hu hneeded ?_ hpicked
        intro m hm
        rcases List.mem_append.1 hm with hm | hm
        · exact (hchain m hm).tail hdepends
        · rw [List.mem_singleton.1 hm]
          exact Relation.TransGen.single hdepends
      have htry : Finds (Known lower request catalog)
          (fun k => tryEach (fun x => tryCandidate lower
            request.distribution catalog.byPackageName packageName stack
            x k) [] fitting) s (OnTheWay lower request catalog pick) :=
        finds_tryEach hfits (fun x hx => calm_tryCandidate hreadable
          hdescribed hcalm
          (relevant_of_mem hreached ((hmem x).1 hx).1) hs.1) hfinds
      refine htry.of_run fun k => ?_
      rw [run_resolvePackage_fresh hstack hexisting hcandidates,
        hfitting, run_lift_ok_bind, if_neg hne]

omit hsolution in
theorem returns_requested {names : List String}
    (hs : Known lower request catalog s)
    (hnames : ∀ name ∈ names, name ∈ request.requestedPackages) :
    Returns (resolveRequestedPackages lower request.distribution
      catalog.byPackageName names) s := by
  induction names generalizing s with
  | nil => exact ⟨none, rfl⟩
  | cons name names ih =>
    unfold resolveRequestedPackages
    exact calm_resolvePackage hreadable hdescribed _ [] rfl name s hs
      (.requested (hnames name List.mem_cons_self)) _ fun u hu =>
        ih hu fun other hother => hnames other (List.mem_cons_of_mem _ hother)

theorem succeeds_requested {names : List String}
    (hs : OnTheWay lower request catalog pick s)
    (hnames : ∀ name ∈ names, name ∈ request.requestedPackages) :
    ∃ t, Succeeds (resolveRequestedPackages lower request.distribution
      catalog.byPackageName names) s t := by
  induction names generalizing s with
  | nil => exact ⟨s, rfl⟩
  | cons name names ih =>
    have hmine := hnames name List.mem_cons_self
    have hrest : ∀ other ∈ names, other ∈ request.requestedPackages :=
      fun other hother => hnames other (List.mem_cons_of_mem _ hother)
    unfold resolveRequestedPackages
    exact finds_resolvePackage hreadable hdescribed hsolution _ [] rfl name
      s hs (.requested hmine) (by simp) (hsolution.requested name hmine) _
      (fun u hu => returns_requested hreadable hdescribed hu hrest)
      fun u hu => ih hu hrest

end Finding

-- =========== the start

theorem requireRequested_spec {name : String} (hname : pyStrip name ≠ "") :
    ∃ r, requireRequested s name = .ok (s.require name r)
      ∧ ∀ c, r.constraint.matches lower c
        = .ok (decide (c.packageName = pyStrip name)) := by
  have hkind : requireNonEmpty "request" "kind" = .ok "request" :=
    requireNonEmpty_eq_ok.2 ⟨by decide, by decide⟩
  have hsource : requireNonEmpty "runtime_request" "source"
      = .ok "runtime_request" :=
    requireNonEmpty_eq_ok.2 ⟨by decide, by decide⟩
  have hrequester : requireNonEmpty "RuntimeConfig.requested_packages"
      "requester" = .ok "RuntimeConfig.requested_packages" :=
    requireNonEmpty_eq_ok.2 ⟨by decide, by decide⟩
  have hnamed : requireNonEmpty name "package_name" = .ok (pyStrip name) :=
    requireNonEmpty_eq_ok.2 ⟨hname, rfl⟩
  refine ⟨⟨⟨canonicalFirstPartyName (pyStrip name), none, none, none, none,
    true, false, "request", []⟩, "runtime_request",
    "RuntimeConfig.requested_packages", none⟩, ?_, fun c => ?_⟩
  · unfold requireRequested RuntimePackageDependencyConstraint.named
      RuntimePackageDependencyConstraint.build ResolutionRequirement.build
    rw [hnamed, ok_bind, hkind, ok_bind, hsource, hrequester]
    rfl
  · unfold RuntimePackageDependencyConstraint.matches
    simp only [canonicalFirstPartyName_eq]
    by_cases h : c.packageName = pyStrip name
    · simp [h, withinBound]
    · simp [h]
      rfl

theorem start_requested (hdescribed : ∀ c ∈ catalog.candidates, Described c)
    {names : List String} (hnamed : ∀ name ∈ names, pyStrip name ≠ "")
    (hs : Known lower request catalog s) :
    ∃ t, names.foldlM requireRequested s = .ok t
      ∧ Known lower request catalog t
      ∧ ∀ pick, Solution lower request catalog pick →
        Agrees lower pick s → Agrees lower pick t := by
  induction names generalizing s with
  | nil => exact ⟨s, rfl, hs, fun _ _ h => h⟩
  | cons name names ih =>
    obtain ⟨r, hrequire, hmatches⟩ : ∃ r, requireRequested s name
        = .ok (s.require name r) ∧ ∀ c, r.constraint.matches lower c
          = .ok (decide (c.packageName = pyStrip name)) :=
      requireRequested_spec (hnamed name List.mem_cons_self)
    have htestable : Testable lower request catalog r :=
      fun c _ _ => ⟨_, hmatches c⟩
    obtain ⟨t, hrun, ht, hagrees⟩ := ih
      (fun other hother => hnamed other (List.mem_cons_of_mem _ hother))
      (hs.require name htestable)
    refine ⟨t, ?_, ht, fun pick hsolution h => ?_⟩
    · rw [List.foldlM_cons, hrequire, ok_bind, hrun]
    · refine hagrees pick hsolution (h.require fun c hc => ?_)
      obtain ⟨hmem, hname⟩ := hsolution.fromCatalog name c hc
      have hstripped := (hdescribed c hmem).stripped.1
      rw [hname] at hstripped
      rw [hmatches, hname, hstripped, decide_eq_true rfl]

theorem known_init : Known lower request catalog .init := by
  refine ⟨fun name c h => ?_, fun name r h => ?_⟩
  · cases h
  · cases h

theorem agrees_init
    {pick : String → Option RuntimePackageCandidateDescriptor} :
    Agrees lower pick .init := by
  refine ⟨fun name c h => ?_, fun name r h => ?_⟩
  · cases h
  · cases h

theorem length_same_lt_two (h : DistinctIds catalog)
    (packageName candidateId : String) :
    ((candidatesOf catalog.byPackageName packageName).filter fun c =>
      c.candidateId = candidateId).length < 2 := by
  have hsorted : (catalog.candidates.insertionSort sortsBefore).Pairwise
      fun a b => a.packageName = b.packageName
        → a.candidateId ≠ b.candidateId := by
    refine ((List.perm_insertionSort sortsBefore
      catalog.candidates).pairwise_iff ?_).2 h
    intro a b hab hname
    exact (hab hname.symm).symm
  have hpairs := (hsorted.filter fun c =>
    decide (c.packageName = packageName)).filter fun c =>
      decide (c.candidateId = candidateId)
  unfold RuntimePackageCatalog.byPackageName
  rw [candidatesOf_groupBy]
  generalize hl : ((catalog.candidates.insertionSort sortsBefore).filter
    fun c => decide (c.packageName = packageName)).filter
      (fun c => decide (c.candidateId = candidateId)) = l at hpairs ⊢
  have hmem : ∀ c ∈ l, c.packageName = packageName
      ∧ c.candidateId = candidateId := by
    intro c hc
    rw [← hl] at hc
    simp only [List.mem_filter, decide_eq_true_eq] at hc
    exact ⟨hc.1.2, hc.2⟩
  cases l with
  | nil => simp
  | cons a rest =>
    cases rest with
    | nil => simp
    | cons b rest =>
      obtain ⟨hna, hia⟩ := hmem a List.mem_cons_self
      obtain ⟨hnb, hib⟩ :=
        hmem b (List.mem_cons_of_mem _ List.mem_cons_self)
      have hab := (List.pairwise_cons.1 hpairs).1 b List.mem_cons_self
      exact absurd (hia.trans hib.symm) (hab (hna.trans hnb.symm))

theorem catalogDiagnostics_of_distinct (h : DistinctIds catalog) :
    catalogDiagnostics catalog.byPackageName = .ok [] := by
  have hnone : ∀ e ∈ catalog.byPackageName.entries, (do
      let found ← (groupBy (·.candidateId) e.2).entries.mapM fun d =>
        duplicateDiagnostic e.1 d.1 d.2
      return found.flatten : Except PackageError
        (List RuntimePackageResolutionDiagnostic)) = .ok [] := by
    intro e he
    have hlist : candidatesOf catalog.byPackageName e.1 = e.2 := by
      unfold candidatesOf
      rw [Dict.get?_eq_some_iff.2 he]
      rfl
    have hsame : ∀ d ∈ (groupBy (·.candidateId) e.2).entries,
        duplicateDiagnostic e.1 d.1 d.2 = .ok [] := by
      intro d hd
      have hgroup : d.2 = e.2.filter fun c => c.candidateId = d.1 := by
        rw [← candidatesOf_groupBy (·.candidateId), candidatesOf,
          Dict.get?_eq_some_iff.2 hd]
        rfl
      have hlt := length_same_lt_two h e.1 d.1
      rw [hlist, ← hgroup] at hlt
      exact if_pos hlt
    rw [mapM_eq_ok_of hsame, ok_bind]
    simp
    rfl
  unfold catalogDiagnostics
  rw [mapM_eq_ok_of hnone, ok_bind]
  simp
  rfl

end Search

-- ===== sound solutions

/-- The candidate of a package in a resolution. -/
def pickOf (resolved : List RuntimePackageCandidateDescriptor)
    (name : String) : Option RuntimePackageCandidateDescriptor :=
  resolved.find? fun c => c.packageName = name

theorem pickOf_eq_some {resolved : List RuntimePackageCandidateDescriptor}
    (hone : (resolved.map (·.packageName)).Nodup) {name : String}
    {c : RuntimePackageCandidateDescriptor} :
    pickOf resolved name = some c ↔ c ∈ resolved ∧ c.packageName = name := by
  unfold pickOf
  refine ⟨fun h => ⟨List.mem_of_find?_eq_some h, ?_⟩, fun h => ?_⟩
  · simpa using List.find?_some h
  · obtain ⟨hmem, hname⟩ := h
    cases hfind : resolved.find? fun c => decide (c.packageName = name) with
    | none =>
      have hnot := List.find?_eq_none.1 hfind c hmem
      simp [hname] at hnot
    | some c' =>
      have hname' : c'.packageName = name := by
        simpa using List.find?_some hfind
      have hsame := List.inj_on_of_nodup_map hone
        (List.mem_of_find?_eq_some hfind) hmem (hname'.trans hname.symm)
      rw [hsame]

theorem solution_of_sound {lower : String → String}
    {request : RuntimePackageRequest} {catalog : RuntimePackageCatalog}
    {resolved : List RuntimePackageCandidateDescriptor}
    (h : SoundResolution lower request catalog resolved) :
    Solution lower request catalog (pickOf resolved) := by
  have hpick : ∀ {name c}, pickOf resolved name = some c
      ↔ c ∈ resolved ∧ c.packageName = name := pickOf_eq_some h.oneEach
  have hplaced : Topological (Depends (pickOf resolved))
      (resolved.map (·.packageName)) := by
    intro before name after heq needed hneeds
    obtain ⟨c, hc, d, hd, rfl⟩ := hneeds
    obtain ⟨l, r, rfl, rfl, hafter⟩ := List.map_eq_append_iff.1 heq
    obtain ⟨c', r', rfl, hname, -⟩ := List.map_eq_cons_iff.1 hafter
    have hmem : c' ∈ l ++ c' :: r' :=
      List.mem_append_right _ List.mem_cons_self
    have hsame := hpick.2 ⟨hmem, hname⟩
    rw [hc] at hsame
    cases hsame
    obtain ⟨c'', hc'', hname''⟩ := h.ordered l c r' rfl d hd
    exact List.mem_map.2 ⟨c'', hc'', hname''⟩
  refine ⟨fun name hname => ?_, fun name c hc => ?_, fun name c hc => ?_,
    fun name c hc d hd => ?_, fun name hcycle => ?_⟩
  · obtain ⟨c, hc⟩ := h.requested name hname
    exact ⟨c, hpick.2 hc⟩
  · obtain ⟨hmem, hname⟩ := hpick.1 hc
    exact ⟨h.fromCatalog c hmem, hname⟩
  · exact h.supported c (hpick.1 hc).1
  · obtain ⟨c', hc', hname, hmatches⟩ :=
      h.satisfied c (hpick.1 hc).1 d hd
    exact ⟨c', hpick.2 ⟨hc', hname⟩, hmatches⟩
  · -- along a chain of dependencies the places go down
    have hdown : ∀ m, Relation.TransGen (Depends (pickOf resolved)) name m →
        (resolved.map (·.packageName)).idxOf m
          < (resolved.map (·.packageName)).idxOf name := by
      intro m hm
      have hlisted : ∀ a b, Depends (pickOf resolved) a b →
          a ∈ resolved.map (·.packageName) := by
        intro a b hab
        obtain ⟨c, hc, -⟩ := hab
        exact List.mem_map.2 ⟨c, hpick.1 hc⟩
      induction hm with
      | single hstep => exact hplaced.idxOf_lt (hlisted _ _ hstep) hstep
      | tail _ hstep ih =>
        exact (hplaced.idxOf_lt (hlisted _ _ hstep) hstep).trans ih
    exact lt_irrefl _ (hdown name hcycle)

-- ======== completeness

/-- Package resolution returns a report, and the report is a success exactly
where the request has a solution. -/
theorem resolution_complete (lower : String → String)
    {request : RuntimePackageRequest} {catalog : RuntimePackageCatalog}
    (hdescribed : ∀ c ∈ catalog.candidates, Described c)
    (hdistinct : DistinctIds catalog)
    (hreadable : Readable lower request catalog) :
    ∃ report, resolveRuntimePackageGraph lower request catalog = .ok report
      ∧ (report.success = true
        ↔ ∃ pick, Solution lower request catalog pick) := by
  have hinit : Known lower request catalog .init := known_init
  obtain ⟨initial, hinitial, hknown, hagrees⟩ :=
    start_requested hdescribed hreadable.named hinit
  obtain ⟨outcome, houtcome⟩ := returns_requested hreadable hdescribed hknown
    (fun _ h => h)
  have hrun : searchGraph lower request catalog initial
      = (.ok outcome, (searchGraph lower request catalog initial).2) :=
    Prod.ext houtcome rfl
  unfold resolveRuntimePackageGraph
  rw [catalogDiagnostics_of_distinct hdistinct, ok_bind]
  rw [if_neg (by simp), hinitial, ok_bind, hrun]
  cases outcome with
  | some failure =>
    refine ⟨_, rfl, fun hsuccess => ?_, fun h => ?_⟩
    · cases hsuccess
    obtain ⟨pick, hsolution⟩ := h
    obtain ⟨t, ht⟩ := succeeds_requested hreadable hdescribed hsolution
      ⟨hknown, hagrees pick hsolution agrees_init⟩ (fun _ h => h)
    -- a search that failed does not succeed
    have hboth : searchGraph lower request catalog initial = (.ok none, t) :=
      ht
    rw [hboth] at hrun
    cases hrun
  | none =>
    have hempty := selected_of_requireRequested hinitial
    have hfits : ∀ name, Fits lower initial name := by
      intro name c hc
      rw [hempty] at hc
      cases hc
    obtain ⟨done, hs, hall⟩ := settles_requested (progress_start hempty)
      hfits (fun _ h => h) hrun
    obtain ⟨ordered, report, -, hreport, hnone, -, hsound⟩ :=
      report_of_progress hs.progress hs.fits hall hdescribed
    refine ⟨report, hreport, fun _ => ⟨_, solution_of_sound hsound⟩,
      fun _ => ?_⟩
    unfold RuntimePackageResolutionReport.success
    rw [hnone]
    rfl

-- ========= an instance

/-- A check of everything a catalog holds: `Readable`, for any request that
it can come to. -/
def allReadable (lower : String → String) (request : RuntimePackageRequest)
    (catalog : RuntimePackageCatalog) : Bool :=
  (request.requestedPackages.all fun name => pyStrip name != "")
    && catalog.candidates.all fun c =>
      (c.supportsDistribution request.distribution).isOk
        && c.toMetadata.isOk
        && catalog.candidates.all fun c' =>
          c'.dependencyConstraints.all fun d => (d.matches lower c).isOk

theorem exists_of_isOk {ε α : Type} {x : Except ε α} (h : x.isOk = true) :
    ∃ a, x = .ok a := by
  cases x with
  | ok a => exact ⟨a, rfl⟩
  | error e => cases h

theorem readable_of_check {lower : String → String}
    {request : RuntimePackageRequest} {catalog : RuntimePackageCatalog}
    (h : allReadable lower request catalog = true) :
    Readable lower request catalog := by
  simp only [allReadable, Bool.and_eq_true, List.all_eq_true, bne_iff_ne]
    at h
  obtain ⟨hnamed, hall⟩ := h
  exact ⟨hnamed, fun c hc => exists_of_isOk (hall c hc.1).1.1,
    fun c hc => exists_of_isOk (hall c hc.1).1.2,
    fun c hc _ c' hc' d hd => exists_of_isOk ((hall c hc.1).2 c' hc'.1 d hd)⟩

instance (catalog : RuntimePackageCatalog) :
    Decidable (DistinctIds catalog) :=
  inferInstanceAs (Decidable (List.Pairwise _ _))

/-- The catalog of the application. -/
def appCatalog (version : String) : Except PackageError RuntimePackageCatalog :=
  buildRuntimePackageCatalog [] (appRegistrations version)

theorem appCatalog_readable : (match appCatalog "0.9" with
    | .ok catalog => decide (DistinctIds catalog)
        && allReadable String.toLower appRequest catalog
    | .error _ => false) = true := by decide

theorem resolution_complete_app :
    ∃ catalog report, appCatalog "0.9" = .ok catalog
      ∧ resolveRuntimePackageGraph String.toLower appRequest catalog
        = .ok report
      ∧ (report.success = true
        ↔ ∃ pick, Solution String.toLower appRequest catalog pick) := by
  have hcheck := appCatalog_readable
  cases hcatalog : appCatalog "0.9" with
  | error e =>
    rw [hcatalog] at hcheck
    cases hcheck
  | ok catalog =>
    rw [hcatalog] at hcheck
    obtain ⟨hdistinct, hreadable⟩ := Bool.and_eq_true_iff.1 hcheck
    obtain ⟨report, hreport, hiff⟩ := resolution_complete String.toLower
      (described_of_built hcatalog) (of_decide_eq_true hdistinct)
      (readable_of_check hreadable)
    exact ⟨catalog, report, rfl, hreport, hiff⟩

/-- A blank request, which no candidate can be asked for. -/
def blankRequest : RuntimePackageRequest :=
  { appRequest with requestedPackages := [""] }

/-- An application that cannot say which distributions it supports. -/
def unreadableManifest : RuntimePackageManifest :=
  { appManifest with
    metadata := [(.str "package_candidate", .dict
      [(.str "compatibility", .dict [(.str "distributions", .int 5)])])] }

/-- A candidate no diagnostic can be printed of. -/
def unprintableManifest : RuntimePackageManifest :=
  { sharedManifest "shared-a" "0.9" with
    metadata := [(.str "invocation_providers", .int 5),
      (.str "package_candidate", .dict [(.str "version", .str "0.9")])] }

/-- An application whose manifest lists a package it has no constraint
for. -/
def undescribedCandidate : RuntimePackageCandidateDescriptor where
  packageName := "app"
  candidateId := "app"
  manifest := { appManifest with dependencies := ["shared"] }
  source := []
  dependencyConstraints := []
  version := none
  compatibility := []
  metadata := []

/-- Whether the request is turned into a report. -/
def reports (request : RuntimePackageRequest)
    (built : Except PackageError RuntimePackageCatalog) : Option Bool :=
  match built with
  | .error _ => none
  | .ok catalog =>
    if DistinctIds catalog then
      some (resolveRuntimePackageGraph String.toLower request catalog).isOk
    else none

/-- What `Readable` and `Described` ask for: a blank package, distributions
that are no sequence, a candidate that a failure cannot print, a version
that `isdigit()` takes for a number and `int()` does not, and a manifest
that tells more than the constraints, each end in an exception. -/
theorem resolution_raises :
    reports blankRequest (.ok ⟨[]⟩) = some false
    ∧ reports appRequest (buildRuntimePackageCatalog []
        [⟨unreadableManifest, 0, "manifest", "app"⟩]) = some false
    ∧ reports appRequest (buildRuntimePackageCatalog []
        [⟨appManifest, 0, "manifest", "app"⟩,
         ⟨unprintableManifest, 1, "manifest", "shared"⟩]) = some false
    ∧ reports appRequest (appCatalog "²") = some false
    ∧ reports appRequest (.ok ⟨[undescribedCandidate]⟩) = some false := by
  refine ⟨?_, ?_, ?_, ?_, ?_⟩
  · decide +kernel
  · decide +kernel
  · decide +kernel
  · decide +kernel
  · decide +kernel

end WeaveRuntime.Packages
