/-
Soundness of package resolution (`resolution_sound`).

# The invariant

The packages the search has selected are the ones on its stack, whose
dependencies are still being settled, and the ones it is done with, in the
order it finished them (`Progress`). A finished package needs only packages
finished before it, so the list of finished packages is a topological order
and no cycle can be left when the stack is empty.

A package may be selected while more is asked of it later, so a selected
candidate fits what is asked of it (`Fits`) except between the moment a
requirement is added and the moment the package is looked at again; that
gap is the one package the two recursive statements leave out.

Both statements are `Backtrack.Leads`: they speak of the state the
continuation was reached in, which no abandoned candidate has touched.
-/
import WeaveRuntime.Packages.Ordering

namespace WeaveRuntime.Packages

open Lib
open Lib.Method
open Lib.Backtrack
open Python

-- ========== statements

/-- The packages a request reaches through the dependencies of these
candidates. -/
inductive Reached (request : RuntimePackageRequest)
    (chosen : RuntimePackageCandidateDescriptor → Prop) : String → Prop where
  | requested {name : String} (h : name ∈ request.requestedPackages) :
      Reached request chosen name
  | dependency {candidate : RuntimePackageCandidateDescriptor}
      (hcandidate : chosen candidate)
      (h : Reached request chosen candidate.packageName)
      {dependency : RuntimePackageDependencyConstraint}
      (hdependency : dependency ∈ candidate.dependencyConstraints) :
      Reached request chosen dependency.packageName

theorem Reached.mono {request : RuntimePackageRequest}
    {chosen chosen' : RuntimePackageCandidateDescriptor → Prop}
    (hsub : ∀ c, chosen c → chosen' c) {name : String}
    (h : Reached request chosen name) : Reached request chosen' name := by
  induction h with
  | requested hname => exact .requested hname
  | dependency hcandidate _ hdependency ih =>
    exact .dependency (hsub _ hcandidate) ih hdependency

structure SoundResolution (lower : String → String)
    (request : RuntimePackageRequest) (catalog : RuntimePackageCatalog)
    (resolved : List RuntimePackageCandidateDescriptor) : Prop where
  oneEach : (resolved.map (·.packageName)).Nodup
  fromCatalog : ∀ c ∈ resolved, c ∈ catalog.candidates
  supported : ∀ c ∈ resolved,
    c.supportsDistribution request.distribution = .ok true
  requested : ∀ name ∈ request.requestedPackages,
    ∃ c ∈ resolved, c.packageName = name
  satisfied : ∀ c ∈ resolved, ∀ dependency ∈ c.dependencyConstraints,
    ∃ c' ∈ resolved, c'.packageName = dependency.packageName
      ∧ dependency.matches lower c' = .ok true
  reached : ∀ c ∈ resolved, Reached request (· ∈ resolved) c.packageName
  ordered : ∀ before c after, resolved = before ++ c :: after →
    ∀ dependency ∈ c.dependencyConstraints,
      ∃ c' ∈ before, c'.packageName = dependency.packageName

-- =========== the state

def SearchState.Chosen (s : SearchState)
    (candidate : RuntimePackageCandidateDescriptor) : Prop :=
  ∃ name, s.selected.get? name = some candidate

/-- The candidate selected for a package depends on another package. -/
def SearchState.Needs (s : SearchState) (name needed : String) : Prop :=
  ∃ candidate, s.selected.get? name = some candidate
    ∧ ∃ dependency ∈ candidate.dependencyConstraints,
      dependency.packageName = needed

/-- Nothing that was selected or asked for is lost. -/
structure Extends (s t : SearchState) : Prop where
  selected : ∀ name c, s.selected.get? name = some c →
    t.selected.get? name = some c
  required : ∀ name, ∀ r ∈ s.requirements name, r ∈ t.requirements name

theorem Extends.refl (s : SearchState) : Extends s s :=
  ⟨fun _ _ h => h, fun _ _ h => h⟩

theorem Extends.trans {s t u : SearchState} (h : Extends s t)
    (h' : Extends t u) : Extends s u :=
  ⟨fun name c hc => h'.selected name c (h.selected name c hc),
    fun name r hr => h'.required name r (h.required name r hr)⟩

@[simp] theorem selected_require (s : SearchState) (packageName : String)
    (requirement : ResolutionRequirement) :
    (s.require packageName requirement).selected = s.selected := rfl

theorem requirements_require (s : SearchState) (packageName : String)
    (requirement : ResolutionRequirement) (name : String) :
    (s.require packageName requirement).requirements name
      = if name = packageName then s.requirements name ++ [requirement]
        else s.requirements name := by
  unfold SearchState.requirements SearchState.require
  rw [Dict.get?_insert]
  by_cases h : name = packageName
  · rw [if_pos h, if_pos h, h]
    rfl
  · rw [if_neg h, if_neg h]

theorem mem_requirements_require {s : SearchState} {packageName : String}
    {requirement r : ResolutionRequirement} {name : String} :
    r ∈ (s.require packageName requirement).requirements name
      ↔ r ∈ s.requirements name ∨ (name = packageName ∧ r = requirement) := by
  rw [requirements_require]
  by_cases h : name = packageName
  · rw [if_pos h, List.mem_append, List.mem_singleton]
    simp [h]
  · rw [if_neg h]
    simp [h]

theorem extends_require (s : SearchState) (packageName : String)
    (requirement : ResolutionRequirement) :
    Extends s (s.require packageName requirement) :=
  ⟨fun _ _ h => h, fun _ _ hr => mem_requirements_require.2 (Or.inl hr)⟩

@[simp] theorem requirements_select (s : SearchState) (packageName : String)
    (candidate : RuntimePackageCandidateDescriptor) (name : String) :
    (s.select packageName candidate).requirements name
      = s.requirements name := rfl

theorem extends_select {s : SearchState} {packageName : String}
    (hnew : s.selected.get? packageName = none)
    (candidate : RuntimePackageCandidateDescriptor) :
    Extends s (s.select packageName candidate) := by
  refine ⟨fun name c hc => ?_, fun name r hr => hr⟩
  have hne : name ≠ packageName := by
    rintro rfl
    rw [hnew] at hc
    cases hc
  exact (Dict.get?_insert_of_ne _ _ hne).trans hc

section Search

variable {lower : String → String} {request : RuntimePackageRequest}
  {catalog : RuntimePackageCatalog}

/-- What is selected for a package fits what is asked of the package. -/
def Fits (lower : String → String) (s : SearchState) (name : String) : Prop :=
  ∀ c, s.selected.get? name = some c →
    ∀ r ∈ s.requirements name, r.constraint.matches lower c = .ok true

/-- How far the search is: the packages on the stack, and the ones it is
done with. -/
structure Progress (request : RuntimePackageRequest)
    (catalog : RuntimePackageCatalog) (stack done : List String)
    (s : SearchState) : Prop where
  listed : ∀ name c, s.selected.get? name = some c →
    c ∈ catalog.candidates ∧ c.packageName = name
  supported : ∀ name c, s.selected.get? name = some c →
    c.supportsDistribution request.distribution = .ok true
  open_or_done : ∀ name, name ∈ s.selected.keys ↔ name ∈ stack ∨ name ∈ done
  placed : Topological s.Needs done
  required : ∀ name ∈ done, ∀ c, s.selected.get? name = some c →
    ∀ dependency ∈ c.dependencyConstraints,
      ∃ r ∈ s.requirements dependency.packageName, r.constraint = dependency
  reached : ∀ name ∈ s.selected.keys, Reached request s.Chosen name

structure Settles (lower : String → String) (request : RuntimePackageRequest)
    (catalog : RuntimePackageCatalog) (stack done : List String)
    (s : SearchState) (done' : List String) (u : SearchState) : Prop where
  progress : Progress request catalog stack done' u
  fits : ∀ name, Fits lower u name
  extends_ : Extends s u
  keeps : ∀ name ∈ done, name ∈ done'

variable {candidate : RuntimePackageCandidateDescriptor} {done : List String}
  {packageName : String} {requirement : ResolutionRequirement}
  {rest : List RuntimePackageDependencyConstraint} {s : SearchState}
  {stack : List String}

theorem Progress.require (h : Progress request catalog stack done s)
    (packageName : String) (requirement : ResolutionRequirement) :
    Progress request catalog stack done
      (s.require packageName requirement) := by
  refine ⟨h.listed, h.supported, h.open_or_done, h.placed,
    fun name hname c hc dependency hdependency => ?_, h.reached⟩
  obtain ⟨r, hr, heq⟩ := h.required name hname c hc dependency hdependency
  exact ⟨r, (extends_require s packageName requirement).required _ r hr, heq⟩

theorem fits_require {name : String} (h : Fits lower s name)
    (hne : name ≠ packageName) (requirement : ResolutionRequirement) :
    Fits lower (s.require packageName requirement) name := by
  intro c hc r hr
  rcases mem_requirements_require.1 hr with hr | hr
  · exact h c hc r hr
  · exact absurd hr.1 hne

theorem Progress.select (h : Progress request catalog stack done s)
    (hnew : s.selected.get? packageName = none)
    (hreached : Reached request s.Chosen packageName)
    (hcandidate : candidate ∈ candidatesOf catalog.byPackageName packageName)
    (hsupports : candidate.supportsDistribution request.distribution
      = .ok true) :
    Progress request catalog (stack ++ [packageName]) done
      (s.select packageName candidate) := by
  have hget : ∀ name c, (s.select packageName candidate).selected.get? name
      = some c → (name = packageName ∧ c = candidate)
        ∨ (name ≠ packageName ∧ s.selected.get? name = some c) := by
    intro name c hc
    have hinsert : (s.selected.insert packageName candidate).get? name
      = some c := hc
    rw [Dict.get?_insert] at hinsert
    split at hinsert
    · next heq => exact Or.inl ⟨heq, (Option.some.inj hinsert).symm⟩
    · next hne => exact Or.inr ⟨hne, hinsert⟩
  have hchosen : ∀ c, s.Chosen c →
      (s.select packageName candidate).Chosen c := by
    intro c hc
    obtain ⟨name, hname⟩ := hc
    exact ⟨name, (extends_select hnew candidate).selected name c hname⟩
  have hnot : packageName ∉ done := by
    intro hmem
    exact Dict.get?_eq_none_iff.1 hnew ((h.open_or_done _).2 (Or.inr hmem))
  refine ⟨fun name c hc => ?_, fun name c hc => ?_, fun name => ?_, ?_,
    fun name hname c hc => ?_, fun name hname => ?_⟩
  · rcases hget name c hc with ⟨rfl, rfl⟩ | ⟨-, hc⟩
    · exact mem_candidatesOf.1 hcandidate
    · exact h.listed name c hc
  · rcases hget name c hc with ⟨rfl, rfl⟩ | ⟨-, hc⟩
    · exact hsupports
    · exact h.supported name c hc
  · have hkeys : name ∈ (s.select packageName candidate).selected.keys
        ↔ name = packageName ∨ name ∈ s.selected.keys := Dict.mem_keys_insert
    rw [hkeys, h.open_or_done, List.mem_append, List.mem_singleton]
    tauto
  · refine h.placed.congr fun name hname needed hneeds => ?_
    obtain ⟨c, hc, hdependency⟩ := hneeds
    rcases hget name c hc with ⟨rfl, -⟩ | ⟨-, hc⟩
    · exact absurd hname hnot
    · exact ⟨c, hc, hdependency⟩
  · rcases hget name c hc with ⟨rfl, -⟩ | ⟨-, hc⟩
    · exact absurd hname hnot
    · exact h.required name hname c hc
  · rcases Dict.mem_keys_insert.1 hname with rfl | hname
    · exact hreached.mono hchosen
    · exact (h.reached name hname).mono hchosen

/-- The dependencies of the last package of the stack are settled: it is
done. -/
theorem Progress.finish
    (h : Progress request catalog (stack ++ [packageName]) done s)
    (hselected : s.selected.get? packageName = some candidate)
    (hdone : ∀ dependency ∈ candidate.dependencyConstraints,
      dependency.packageName ∈ done)
    (hrequired : ∀ dependency ∈ candidate.dependencyConstraints,
      ∃ r ∈ s.requirements dependency.packageName,
        r.constraint = dependency) :
    Progress request catalog stack (done ++ [packageName]) s := by
  refine ⟨h.listed, h.supported, fun name => ?_, ?_,
    fun name hname c hc => ?_, h.reached⟩
  · rw [h.open_or_done, List.mem_append, List.mem_append]
    tauto
  · refine h.placed.concat fun needed hneeds => ?_
    obtain ⟨c, hc, dependency, hdependency, rfl⟩ := hneeds
    rw [hselected] at hc
    cases hc
    exact hdone dependency hdependency
  · rcases List.mem_append.1 hname with hname | hname
    · exact h.required name hname c hc
    · rw [List.mem_singleton.1 hname, hselected] at hc
      cases hc
      exact hrequired

-- ========== the search

theorem candidateSatisfies_eq_true {requirements : List ResolutionRequirement}
    {distribution : String} :
    candidateSatisfies lower candidate requirements distribution = .ok true
      ↔ candidate.supportsDistribution distribution = .ok true
        ∧ ∀ r ∈ requirements,
          r.constraint.matches lower candidate = .ok true := by
  unfold candidateSatisfies
  rw [bind_eq_ok]
  refine ⟨fun h => ?_, fun h => ⟨true, h.1, ?_⟩⟩
  · obtain ⟨supports, hsupports, hall⟩ := h
    cases supports with
    | true => exact ⟨hsupports, allRaising_eq_true.1 hall⟩
    | false => cases hall
  · exact allRaising_eq_true.2 h.2

/-- What resolving a package leads to. -/
def SettlesPackage (lower : String → String) (request : RuntimePackageRequest)
    (catalog : RuntimePackageCatalog) (stack done : List String)
    (s : SearchState) (packageName : String) (u : SearchState) : Prop :=
  ∃ done', Settles lower request catalog stack done s done' u
    ∧ packageName ∈ done'

/-- What resolving dependencies leads to. -/
def SettlesDependencies (lower : String → String)
    (request : RuntimePackageRequest) (catalog : RuntimePackageCatalog)
    (stack done : List String) (s : SearchState)
    (dependencies : List RuntimePackageDependencyConstraint)
    (u : SearchState) : Prop :=
  ∃ done', Settles lower request catalog stack done s done' u
    ∧ ∀ dependency ∈ dependencies, dependency.packageName ∈ done'
      ∧ ∃ r ∈ u.requirements dependency.packageName,
        r.constraint = dependency

theorem constraint_of_build {constraint : RuntimePackageDependencyConstraint}
    {source requester : String} {requesterCandidateId : Option String}
    (h : ResolutionRequirement.build constraint source requester
      requesterCandidateId = .ok requirement) :
    requirement.constraint = constraint := by
  obtain ⟨source', -, h⟩ := bind_eq_ok.1 h
  obtain ⟨requester', -, h⟩ := bind_eq_ok.1 h
  cases h
  rfl

/-- What asks for a package is stripped. -/
example : ((ResolutionRequirement.build
      ⟨"shared", none, none, none, none, true, false, "package", []⟩
      "dependency" " app\n" none).toOption.map (·.requester))
    = some "app" := by
  decide +kernel

theorem run_resolveCandidateDependencies {resolve : String → PackageStep}
    {dependency : RuntimePackageDependencyConstraint}
    (h : ResolutionRequirement.build dependency "dependency"
      candidate.packageName (some candidate.candidateId) = .ok requirement)
    (k : PackageSearch) :
    (resolveCandidateDependencies resolve candidate
        (dependency :: rest) k).run s
      = (resolve dependency.packageName
          (resolveCandidateDependencies resolve candidate rest k)).run
        (s.require dependency.packageName requirement) := by
  conv_lhs => unfold resolveCandidateDependencies
  rw [h]
  rfl

theorem Settles.dependencies {done' : List String} {u v : SearchState}
    {dependency : RuntimePackageDependencyConstraint}
    (hconstraint : requirement.constraint = dependency)
    (hu : Settles lower request catalog stack done
      (s.require dependency.packageName requirement) done' u)
    (hmem : dependency.packageName ∈ done')
    (hv : SettlesDependencies lower request catalog stack done' u rest v) :
    SettlesDependencies lower request catalog stack done s
      (dependency :: rest) v := by
  obtain ⟨done'', hv, hdeps⟩ := hv
  have hextends : Extends s v :=
    (extends_require s _ requirement).trans (hu.extends_.trans hv.extends_)
  refine ⟨done'', ⟨hv.progress, hv.fits, hextends, fun name h =>
    hv.keeps name (hu.keeps name h)⟩, fun d hd => ?_⟩
  rcases List.mem_cons.1 hd with rfl | hd
  · have hnew : requirement ∈ (s.require d.packageName
        requirement).requirements d.packageName :=
      mem_requirements_require.2 (Or.inr ⟨rfl, rfl⟩)
    exact ⟨hv.keeps _ hmem, requirement, hv.extends_.required _ _
      (hu.extends_.required _ _ hnew), hconstraint⟩
  · exact hdeps d hd

/-- The dependencies that are left of a candidate on top of the stack,
where the packages under it are resolved as stated. -/
theorem leads_resolveCandidateDependencies {resolve : String → PackageStep}
    (hresolve : ∀ packageName s done,
      Progress request catalog stack done s →
      (∀ name, name ≠ packageName → Fits lower s name) →
      Reached request s.Chosen packageName →
      Leads (resolve packageName) s
        (SettlesPackage lower request catalog stack done s packageName))
    (hprogress : Progress request catalog stack done s)
    (hfits : ∀ name, Fits lower s name) (hreached : ∀ dependency ∈ rest,
      Reached request s.Chosen dependency.packageName) :
    Leads (resolveCandidateDependencies resolve candidate rest) s
      (SettlesDependencies lower request catalog stack done s rest) := by
  induction rest generalizing s done with
  | nil =>
    exact leads_id ⟨done, ⟨hprogress, hfits, Extends.refl s,
      fun _ h => h⟩, by simp⟩
  | cons dependency rest ih =>
    cases hrequirement : ResolutionRequirement.build dependency
        "dependency" candidate.packageName (some candidate.candidateId) with
    | error e =>
      refine leads_never fun k t hk => ?_
      unfold Succeeds resolveCandidateDependencies at hk
      rw [hrequirement] at hk
      cases hk
    | ok requirement =>
      have hconstraint := constraint_of_build hrequirement
      have hfirst := hresolve dependency.packageName
        (s.require dependency.packageName requirement) done
        (hprogress.require _ requirement)
        (fun name hne => fits_require (hfits name) hne requirement)
        (hreached dependency List.mem_cons_self)
      refine Leads.of_run ?_ (run_resolveCandidateDependencies
        hrequirement)
      refine hfirst.comp fun u hu => ?_
      obtain ⟨done', hu, hmem⟩ := hu
      have hrest : ∀ d ∈ rest,
          Reached request u.Chosen d.packageName := by
        intro d hd
        refine (hreached d (List.mem_cons_of_mem _ hd)).mono fun c hc => ?_
        obtain ⟨name, hname⟩ := hc
        exact ⟨name, hu.extends_.selected name c hname⟩
      exact (ih hu.progress hu.fits hrest).mono fun v hv =>
        hu.dependencies hconstraint hmem hv

theorem not_succeeds_constraintFailed {distribution : String}
    {requirements : List ResolutionRequirement}
    {candidates : List RuntimePackageCandidateDescriptor} {t : SearchState} :
    ¬ Succeeds (constraintFailed lower packageName requirements candidates
      distribution) s t := by
  intro h
  unfold Succeeds constraintFailed at h
  cases hfailure : constraintFailure lower packageName requirements candidates
      distribution with
  | error e =>
    rw [hfailure] at h
    cases h
  | ok failure =>
    rw [hfailure] at h
    cases h

/-- A candidate that fits is tried, where the packages under it are
resolved as stated. -/
theorem leads_tryCandidate (hresolve : ∀ name s done,
      Progress request catalog (stack ++ [packageName]) done s →
      (∀ other, other ≠ name → Fits lower s other) →
      Reached request s.Chosen name →
      Leads (resolvePackage lower request.distribution catalog.byPackageName
          name (stack ++ [packageName])) s
        (SettlesPackage lower request catalog (stack ++ [packageName]) done s
          name)) (hprogress : Progress request catalog stack done s)
    (hfits : ∀ name, name ≠ packageName → Fits lower s name)
    (hreached : Reached request s.Chosen packageName)
    (hnew : s.selected.get? packageName = none)
    (hcandidate : candidate ∈ candidatesOf catalog.byPackageName packageName)
    (hsatisfies : candidateSatisfies lower candidate
      (s.requirements packageName) request.distribution = .ok true) :
    Leads (tryCandidate lower request.distribution catalog.byPackageName
        packageName stack candidate) s
      (SettlesPackage lower request catalog stack done s packageName) := by
  obtain ⟨hsupports, hmatches⟩ := candidateSatisfies_eq_true.1 hsatisfies
  have hselected : (s.select packageName candidate).selected.get? packageName
      = some candidate := Dict.get?_insert_self _ _ _
  have hname : candidate.packageName = packageName :=
    (mem_candidatesOf.1 hcandidate).2
  have hfits' : ∀ name, Fits lower (s.select packageName candidate) name := by
    intro name c hc r hr
    by_cases hne : name = packageName
    · subst hne
      rw [hselected] at hc
      cases hc
      exact hmatches r hr
    · exact hfits name hne c
        ((Dict.get?_insert_of_ne _ _ hne).symm.trans hc) r hr
  have hprogress' := hprogress.select hnew hreached hcandidate hsupports
  have hreached' : ∀ dependency ∈ candidate.dependencyConstraints,
      Reached request (s.select packageName candidate).Chosen
        dependency.packageName := by
    intro dependency hdependency
    have hkey : packageName ∈ (s.select packageName candidate).selected.keys :=
      Dict.mem_keys_iff.2 ⟨candidate, hselected⟩
    refine .dependency ⟨packageName, hselected⟩ ?_ hdependency
    rw [hname]
    exact hprogress'.reached packageName hkey
  have hrun : ∀ k, (tryCandidate lower request.distribution
      catalog.byPackageName packageName stack candidate k).run s
      = (resolveCandidateDependencies (fun dependency onResolved =>
          resolvePackage lower request.distribution catalog.byPackageName
            dependency (stack ++ [packageName]) onResolved)
        candidate candidate.dependencyConstraints k).run
        (s.select packageName candidate) := fun _ => rfl
  refine Leads.of_run ?_ hrun
  refine (leads_resolveCandidateDependencies hresolve hprogress' hfits'
    hreached').mono fun u hu => ?_
  obtain ⟨done', hu, hdeps⟩ := hu
  have hmine := hu.extends_.selected packageName candidate hselected
  have hfinish := hu.progress.finish hmine (fun d hd => (hdeps d hd).1)
    fun d hd => (hdeps d hd).2
  exact ⟨done' ++ [packageName],
    ⟨hfinish, hu.fits, (extends_select hnew candidate).trans hu.extends_,
      fun name h => List.mem_append_left _ (hu.keeps name h)⟩,
    List.mem_append_right _ (List.mem_singleton_self _)⟩

/-- A package is resolved. The induction is on the packages of the catalog
that are not on the stack. -/
theorem leads_resolvePackage :
    ∀ (left : Nat) (stack : List String),
      unvisited catalog.byPackageName stack = left →
      ∀ packageName s done,
        Progress request catalog stack done s →
        (∀ name, name ≠ packageName → Fits lower s name) →
        Reached request s.Chosen packageName →
        Leads (resolvePackage lower request.distribution
            catalog.byPackageName packageName stack) s
          (SettlesPackage lower request catalog stack done s
            packageName) := by
  intro left
  induction left using Nat.strongRecOn with
  | ind left ih =>
    intro stack hleft packageName s done hprogress hfits hreached
    by_cases hstack : packageName ∈ stack
    · refine leads_never fun k t hk => ?_
      rw [Succeeds, run_resolvePackage_cyclic hstack] at hk
      cases hk
    cases hexisting : s.selected.get? packageName with
    | some existing =>
      intro k t hk
      rw [Succeeds, run_resolvePackage_existing hstack hexisting] at hk
      cases hsatisfies : candidateSatisfies lower existing
          (s.requirements packageName) request.distribution with
      | error e =>
        rw [hsatisfies] at hk
        cases hk
      | ok satisfies =>
        rw [hsatisfies, run_lift_ok_bind] at hk
        cases satisfies with
        | false =>
          rw [if_neg Bool.false_ne_true] at hk
          exact absurd hk not_succeeds_constraintFailed
        | true =>
          rw [if_pos rfl] at hk
          have hmatches := (candidateSatisfies_eq_true.1 hsatisfies).2
          have hall : ∀ name, Fits lower s name := by
            intro name
            by_cases hne : name = packageName
            · intro c hc r hr
              rw [hne, hexisting] at hc
              cases hc
              rw [hne] at hr
              exact hmatches r hr
            · exact hfits name hne
          have hdone : packageName ∈ done := by
            have hkey : packageName ∈ s.selected.keys :=
              Dict.mem_keys_iff.2 ⟨existing, hexisting⟩
            exact ((hprogress.open_or_done _).1 hkey).resolve_left
              hstack
          exact ⟨s, ⟨done, ⟨hprogress, hall, Extends.refl s,
            fun _ h => h⟩, hdone⟩, hk⟩
    | none =>
      by_cases hcandidates :
          candidatesOf catalog.byPackageName packageName = []
      · refine leads_never fun k t hk => ?_
        rw [Succeeds, run_resolvePackage_missing hstack hexisting
          hcandidates] at hk
        cases hk
      cases hfitting : filterRaising (fun candidate =>
          candidateSatisfies lower candidate (s.requirements packageName)
            request.distribution)
          (candidatesOf catalog.byPackageName packageName) with
      | error e =>
        refine leads_never fun k t hk => ?_
        rw [Succeeds, run_resolvePackage_fresh hstack hexisting
          hcandidates, hfitting] at hk
        cases hk
      | ok fitting =>
        by_cases hempty : fitting = []
        · refine leads_never fun k t hk => ?_
          rw [Succeeds, run_resolvePackage_fresh hstack hexisting
            hcandidates, hfitting, run_lift_ok_bind, hempty,
            if_pos List.isEmpty_nil] at hk
          exact not_succeeds_constraintFailed hk
        · have hrun : ∀ k, (resolvePackage lower request.distribution
              catalog.byPackageName packageName stack k).run s
              = (tryEach (fun candidate => tryCandidate lower
                  request.distribution catalog.byPackageName
                  packageName stack candidate k) [] fitting).run s := by
            intro k
            rw [run_resolvePackage_fresh hstack hexisting hcandidates,
              hfitting, run_lift_ok_bind,
              if_neg (by rwa [List.isEmpty_iff])]
          refine Leads.of_run ?_ hrun
          refine leads_tryEach (Or.inl hempty) fun candidate hmem => ?_
          obtain ⟨hcandidate, hsatisfies⟩ :=
            (mem_of_filterRaising hfitting candidate).1 hmem
          have hlt := unvisited_lt hcandidates hstack
          exact leads_tryCandidate (fun name s done =>
              ih _ (hleft ▸ hlt) (stack ++ [packageName]) rfl name s
                done) hprogress hfits hreached hexisting hcandidate
            hsatisfies

/-- The run lemma: the requested packages are resolved one after the
other. -/
theorem settles_requested {names : List String} {t : SearchState}
    (hprogress : Progress request catalog [] done s)
    (hfits : ∀ name, Fits lower s name)
    (hnames : ∀ name ∈ names, name ∈ request.requestedPackages)
    (h : Succeeds (resolveRequestedPackages lower request.distribution
      catalog.byPackageName names) s t) :
    ∃ done', Settles lower request catalog [] done s done' t
      ∧ ∀ name ∈ names, name ∈ done' := by
  induction names generalizing s done with
  | nil =>
    cases h
    exact ⟨done, ⟨hprogress, hfits, Extends.refl _, fun _ h => h⟩, by simp⟩
  | cons name names ih =>
    unfold resolveRequestedPackages at h
    obtain ⟨u, ⟨done', hu, hmem⟩, hrest⟩ := leads_resolvePackage _ [] rfl
      name s done hprogress (fun other _ => hfits other)
      (.requested (hnames name List.mem_cons_self)) _ t h
    obtain ⟨done'', ht, hall⟩ := ih hu.progress hu.fits
      (fun other hother => hnames other (List.mem_cons_of_mem _ hother))
      hrest
    refine ⟨done'', ⟨ht.progress, ht.fits, hu.extends_.trans ht.extends_,
      fun x hx => ht.keeps x (hu.keeps x hx)⟩, fun x hx => ?_⟩
    rcases List.mem_cons.1 hx with rfl | hx
    · exact ht.keeps x hmem
    · exact hall x hx

theorem selected_of_requireRequested {names : List String} {t : SearchState}
    (h : names.foldlM requireRequested s = .ok t) :
    t.selected = s.selected := by
  refine foldlM_invariant (I := fun u => u.selected = s.selected) ?_ rfl h
  intro u name v hu hv
  obtain ⟨constraint, -, hv⟩ := bind_eq_ok.1 hv
  obtain ⟨requirement, -, hv⟩ := bind_eq_ok.1 hv
  cases hv
  exact hu

theorem progress_start (h : s.selected = Dict.empty) :
    Progress request catalog [] [] s := by
  refine ⟨fun name c hc => ?_, fun name c hc => ?_, fun name => ?_,
    topological_nil, by simp, fun name hname => ?_⟩
  · rw [h] at hc
    cases hc
  · rw [h] at hc
    cases hc
  · rw [h]
    simp
  · rw [h] at hname
    cases hname

end Search

-- ========== the report

section Report

variable {lower : String → String} {request : RuntimePackageRequest}
  {catalog : RuntimePackageCatalog} {s : SearchState} {done : List String}

theorem get?_selectedManifests
    (selected : Dict String RuntimePackageCandidateDescriptor)
    (name : String) :
    (selectedManifests selected).get? name
      = (selected.get? name).map (·.manifest) := by
  refine Option.ext fun manifest => ?_
  rw [Dict.get?_eq_some_iff, Option.map_eq_some_iff]
  refine ⟨fun h => ?_, fun h => ?_⟩
  · obtain ⟨e, he, heq⟩ := List.mem_map.1 h
    cases heq
    exact ⟨e.2, Dict.get?_eq_some_iff.2 he, rfl⟩
  · obtain ⟨c, hc, rfl⟩ := h
    exact List.mem_map.2 ⟨(name, c), Dict.get?_eq_some_iff.1 hc, rfl⟩

theorem Progress.ranked (h : Progress request catalog [] done s)
    (hdescribed : ∀ c ∈ catalog.candidates, Described c) :
    Ranked s.selected.keys (selectedManifests s.selected) done.idxOf := by
  have hneeds : ∀ name needed,
      ManifestNeeds (selectedManifests s.selected) name needed →
        s.Needs name needed := by
    intro name needed hneed
    obtain ⟨manifest, hmanifest, hmem⟩ := hneed
    rw [get?_selectedManifests, Option.map_eq_some_iff] at hmanifest
    obtain ⟨c, hc, rfl⟩ := hmanifest
    have hdesc := hdescribed c (h.listed name c hc).1
    exact ⟨c, hc, (hdesc.edges needed).1 hmem⟩
  have hdone : ∀ name, name ∈ s.selected.keys ↔ name ∈ done := by
    intro name
    rw [h.open_or_done]
    simp
  refine ⟨fun name hname => ?_, fun name hname needed hneed => ?_,
    fun name hname needed hneed => ?_⟩
  · obtain ⟨c, hc⟩ := Dict.mem_keys_iff.1 hname
    exact ⟨c.manifest, by rw [get?_selectedManifests, hc]; rfl⟩
  · rw [hdone] at hname ⊢
    exact h.placed.mem hname (hneeds name needed hneed)
  · rw [hdone] at hname
    exact h.placed.idxOf_lt hname (hneeds name needed hneed)

theorem candidates_of_ordered (h : Progress request catalog [] done s)
    (hdescribed : ∀ c ∈ catalog.candidates, Described c) {names : List String}
    {ordered : List RuntimePackageManifest}
    (hordered : ordered.map some
      = names.map (selectedManifests s.selected).get?) :
    ∃ candidates, ordered.mapM (fun manifest =>
        orRaise (s.selected.get? manifest.name)
          (PackageError.keyError manifest.name)) = .ok candidates
      ∧ candidates.map some = names.map s.selected.get?
      ∧ candidates.map (·.packageName) = names := by
  induction ordered generalizing names with
  | nil =>
    have hnil : names = [] := by simpa using hordered.symm
    exact ⟨[], rfl, by rw [hnil]; rfl, by rw [hnil]; rfl⟩
  | cons manifest ordered ih =>
    cases names with
    | nil => cases hordered
    | cons name names =>
      rw [List.map_cons, List.map_cons, List.cons.injEq] at hordered
      obtain ⟨hfirst, hrest⟩ := hordered
      rw [get?_selectedManifests, eq_comm, Option.map_eq_some_iff]
        at hfirst
      obtain ⟨c, hc, rfl⟩ := hfirst
      obtain ⟨hmem, hname⟩ := h.listed name c hc
      obtain ⟨candidates, hrun, hsome, hnames⟩ := ih hrest
      have hmanifest : c.manifest.name = name :=
        (hdescribed c hmem).name.trans hname
      refine ⟨c :: candidates, ?_, ?_, ?_⟩
      · rw [List.mapM_cons, hmanifest, hc, orRaise_some, ok_bind, hrun]
        rfl
      · rw [List.map_cons, List.map_cons, hc, hsome]
      · rw [List.map_cons, hname, hnames]

theorem report_of_progress (h : Progress request catalog [] done s)
    (hfits : ∀ name, Fits lower s name)
    (hrequested : ∀ name ∈ request.requestedPackages, name ∈ done)
    (hdescribed : ∀ c ∈ catalog.candidates, Described c) :
    ∃ ordered report,
      orderPackageManifests s.selected.keys (selectedManifests s.selected)
        = .ok ordered
      ∧ resolvedReport request catalog s.selected = .ok report
      ∧ report.diagnostics = []
      ∧ report.resolvedManifests = report.resolvedCandidates.map (·.manifest)
      ∧ SoundResolution lower request catalog report.resolvedCandidates := by
  obtain ⟨names, ordered, hrun, hordered⟩ :=
    orderPackageManifests_spec (h.ranked hdescribed)
  obtain ⟨candidates, hfound, hsome, hnames⟩ :=
    candidates_of_ordered h hdescribed hordered.manifests
  have hreport : resolvedReport request catalog s.selected
      = .ok ⟨request, catalog, candidates, ordered, []⟩ := by
    unfold resolvedReport
    rw [hrun, ok_bind, hfound]
    rfl
  -- the resolved candidates are the selected ones
  have hmem : ∀ c, c ∈ candidates
      ↔ ∃ name, s.selected.get? name = some c := by
    intro c
    have hin : c ∈ candidates ↔ some c ∈ names.map s.selected.get? := by
      rw [← hsome]
      simp
    rw [hin, List.mem_map]
    refine ⟨fun hc => hc.imp fun name hname => hname.2, fun hc => ?_⟩
    obtain ⟨name, hname⟩ := hc
    exact ⟨name, (hordered.covers name).2
      (Dict.mem_keys_iff.2 ⟨c, hname⟩), hname⟩
  have hselected : ∀ c ∈ candidates,
      s.selected.get? c.packageName = some c := by
    intro c hc
    obtain ⟨name, hname⟩ := (hmem c).1 hc
    rwa [(h.listed name c hname).2]
  have hdone : ∀ name, name ∈ s.selected.keys ↔ name ∈ done := by
    intro name
    rw [h.open_or_done]
    simp
  have hof : ∀ name ∈ done, ∃ c ∈ candidates, c.packageName = name := by
    intro name hname
    obtain ⟨c, hc⟩ := Dict.mem_keys_iff.1 ((hdone name).2 hname)
    exact ⟨c, (hmem c).2 ⟨name, hc⟩, (h.listed name c hc).2⟩
  have hneeds : ∀ c ∈ candidates, ∀ d ∈ c.dependencyConstraints,
      s.Needs c.packageName d.packageName :=
    fun c hc d hd => ⟨c, hselected c hc, d, hd, rfl⟩
  have hdoneOf : ∀ c ∈ candidates, c.packageName ∈ done := by
    intro c hc
    exact (hdone _).1 (Dict.mem_keys_iff.2 ⟨c, hselected c hc⟩)
  refine ⟨ordered, _, hrun, hreport, rfl, ?_, ?_, ?_, ?_, ?_, ?_, ?_, ?_⟩
  · -- the manifests are the candidates'
    have hmanifests : ordered.map some
        = (candidates.map (·.manifest)).map some := by
      rw [hordered.manifests, List.map_map]
      have hcomp : names.map (selectedManifests s.selected).get?
          = (names.map s.selected.get?).map (Option.map (·.manifest)) := by
        rw [List.map_map]
        exact List.map_congr_left fun name _ =>
          get?_selectedManifests s.selected name
      rw [hcomp, ← hsome, List.map_map]
      rfl
    exact (List.map_injective_iff.2 (Option.some_injective _)) hmanifests
  · show (candidates.map (·.packageName)).Nodup
    rw [hnames]
    exact hordered.nodup
  · intro c hc
    obtain ⟨name, hname⟩ := (hmem c).1 hc
    exact (h.listed name c hname).1
  · exact fun c hc => h.supported _ c (hselected c hc)
  · exact fun name hname => hof name (hrequested name hname)
  · intro c hc d hd
    have hmine := hdoneOf c hc
    obtain ⟨c', hc', hname⟩ := hof d.packageName
      (h.placed.mem hmine (hneeds c hc d hd))
    obtain ⟨r, hr, rfl⟩ := h.required _ hmine c (hselected c hc) d hd
    refine ⟨c', hc', hname, ?_⟩
    rw [← hname] at hr
    exact hfits _ c' (hselected c' hc') r hr
  · intro c hc
    have hkey := (hdone _).2 (hdoneOf c hc)
    exact (h.reached _ hkey).mono fun c' hc' => (hmem c').2 hc'
  · intro before c after heq d hd
    have hc : c ∈ candidates := by
      show c ∈ _
      rw [show candidates = before ++ c :: after from heq]
      exact List.mem_append_right _ List.mem_cons_self
    have hplaces : names = before.map (·.packageName)
        ++ c.packageName :: after.map (·.packageName) := by
      rw [← hnames, show candidates = before ++ c :: after from heq,
        List.map_append, List.map_cons]
    have hneed : ManifestNeeds (selectedManifests s.selected) c.packageName
        d.packageName := by
      refine ⟨c.manifest, ?_, ?_⟩
      · rw [get?_selectedManifests, hselected c hc]
        rfl
      · have hlisted := (h.listed _ c (hselected c hc)).1
        exact ((hdescribed c hlisted).edges _).2 ⟨d, hd, rfl⟩
    obtain ⟨c', hc', hname⟩ := List.mem_map.1
      (hordered.placed _ _ _ hplaces d.packageName hneed)
    exact ⟨c', hc', hname⟩

/-- Package resolution is sound: a report without diagnostics is a sound
resolution, and where the search succeeds the order is found. -/
theorem resolution_sound (lower : String → String)
    {firstPartyManifests : List RuntimePackageManifest}
    {accepted : List AcceptedRuntimePackageRegistration}
    {catalog : RuntimePackageCatalog}
    (hcatalog : buildRuntimePackageCatalog firstPartyManifests accepted
      = .ok catalog) (request : RuntimePackageRequest) :
    (∀ report, resolveRuntimePackageGraph lower request catalog = .ok report →
      report.success = true →
        SoundResolution lower request catalog report.resolvedCandidates
        ∧ report.resolvedManifests
          = report.resolvedCandidates.map (·.manifest))
    ∧ ∀ initial s, request.requestedPackages.foldlM requireRequested .init
        = .ok initial →
      searchGraph lower request catalog initial = (.ok none, s) →
        ∃ ordered, orderPackageManifests s.selected.keys
          (selectedManifests s.selected) = .ok ordered := by
  have hdescribed := described_of_built hcatalog
  have hsearch : ∀ initial s,
      request.requestedPackages.foldlM requireRequested .init = .ok initial →
      searchGraph lower request catalog initial = (.ok none, s) →
        ∃ ordered report, orderPackageManifests s.selected.keys
            (selectedManifests s.selected) = .ok ordered
          ∧ resolvedReport request catalog s.selected = .ok report
          ∧ report.diagnostics = []
          ∧ report.resolvedManifests
            = report.resolvedCandidates.map (·.manifest)
          ∧ SoundResolution lower request catalog
            report.resolvedCandidates := by
    intro initial s hinitial hrun
    have hempty := selected_of_requireRequested hinitial
    have hfits : ∀ name, Fits lower initial name := by
      intro name c hc
      rw [hempty] at hc
      cases hc
    obtain ⟨done, hs, hall⟩ := settles_requested (progress_start hempty)
      hfits (fun _ h => h) hrun
    exact report_of_progress hs.progress hs.fits hall hdescribed
  refine ⟨fun report hreport hsuccess => ?_, fun initial s hinitial hrun => ?_⟩
  · obtain ⟨diagnostics, -, hreport⟩ := bind_eq_ok.1 hreport
    split at hreport
    · next hsome =>
      cases hreport
      simp only [RuntimePackageResolutionReport.success] at hsuccess
      rw [hsuccess] at hsome
      cases hsome
    · obtain ⟨initial, hinitial, hreport⟩ := bind_eq_ok.1 hreport
      split at hreport
      · cases hreport
      · cases hreport
        cases hsuccess
      · next s hrun =>
        obtain ⟨ordered, report', -, hfound, -, hmanifests, hsound⟩ :=
          hsearch initial s hinitial hrun
        rw [hfound] at hreport
        cases hreport
        exact ⟨hsound, hmanifests⟩
  · obtain ⟨ordered, report', hordered, -⟩ := hsearch initial s hinitial hrun
    exact ⟨ordered, hordered⟩

end Report

-- ========= an instance

theorem stripped_appName : Stripped "app" := by decide

theorem stripped_sharedName : Stripped "shared" := by decide

theorem stripped_packageRole : Stripped "capability" := by decide

theorem stripped_coreDistribution : Stripped "weavert-core" := by
  decide

/-- An application that asks for version 1 of a package or a later one. -/
def appManifest : RuntimePackageManifest where
  name := "app"
  role := "capability"
  description := ""
  dependencies := []
  metadata := [(.str "package_candidate", .dict
    [(.str "dependencies", .list
      [.dict [(.str "name", .str "shared"),
        (.str "minimum_version", .str "1")]])])]
  name_stripped := stripped_appName
  role_stripped := stripped_packageRole

def sharedManifest (candidateId version : String) :
    RuntimePackageManifest where
  name := "shared"
  role := "capability"
  description := ""
  dependencies := []
  metadata := [(.str "package_candidate", .dict
    [(.str "candidate_id", .str candidateId),
     (.str "version", .str version)])]
  name_stripped := stripped_sharedName
  role_stripped := stripped_packageRole

/-- The application and two candidates of the package: the first of the
given version, the second good. -/
def appRegistrations (version : String) :
    List AcceptedRuntimePackageRegistration :=
  [⟨appManifest, 0, "manifest", "app"⟩,
   ⟨sharedManifest "shared-a" version, 1, "manifest", "shared"⟩,
   ⟨sharedManifest "shared-b" "1.0", 2, "manifest", "shared"⟩]

def appRequest : RuntimePackageRequest where
  distribution := "weavert-core"
  baselinePackages := []
  enabledFirstPartyPackages := []
  disabledFirstPartyPackages := []
  explicitPackageRequests := ["app"]
  requestedPackages := ["app"]
  distribution_stripped := stripped_coreDistribution

/-- Whether the application is resolved. -/
def appResolves (version : String) : Except PackageError Bool := do
  let catalog ← buildRuntimePackageCatalog [] (appRegistrations version)
  let report ← resolveRuntimePackageGraph String.toLower appRequest catalog
  return report.success

theorem appResolves_early :
    (appResolves "0.9").toOption = some true := by decide +kernel

/-- The first candidate is too old, and the second is resolved. -/
theorem resolution_sound_app :
    ∃ catalog report,
      buildRuntimePackageCatalog [] (appRegistrations "0.9") = .ok catalog
      ∧ resolveRuntimePackageGraph String.toLower appRequest catalog
        = .ok report
      ∧ SoundResolution String.toLower appRequest catalog
        report.resolvedCandidates := by
  have hok : appResolves "0.9" = .ok true := by
    have h := appResolves_early
    cases hrun : appResolves "0.9" with
    | error e =>
      rw [hrun] at h
      cases h
    | ok b =>
      rw [hrun] at h
      exact congrArg Except.ok (Option.some.inj h)
  obtain ⟨catalog, hcatalog, h⟩ := bind_eq_ok.1 hok
  obtain ⟨report, hreport, h⟩ := bind_eq_ok.1 h
  have hsuccess : report.success = true := Except.ok.inj h
  exact ⟨catalog, report, hcatalog, hreport,
    ((resolution_sound String.toLower hcatalog appRequest).1 report hreport
      hsuccess).1⟩

end WeaveRuntime.Packages
