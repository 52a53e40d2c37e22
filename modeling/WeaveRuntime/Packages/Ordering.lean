/-
The order of the manifests: `order_package_manifests` returns, and lists
each manifest after the ones it depends on, wherever the dependencies stay
among the requested packages and have no cycle (`orderPackageManifests_spec`).

The argument is one induction on the rank of the visited package: a visit
lists nothing of a greater rank than its own (`Visited.low`), so the
visits of the dependencies leave the package itself unlisted, and the chain
of open visits, whose ranks are all greater, is never met.
-/
import WeaveRuntime.Lib.Topological
import WeaveRuntime.Packages.Resolver

namespace WeaveRuntime.Packages

open Lib
open Lib.Method

variable {requested : List String}
  {manifestCatalog : Dict String RuntimePackageManifest}

/-- A package's manifest lists this dependency. -/
def ManifestNeeds (manifestCatalog : Dict String RuntimePackageManifest)
    (name dependency : String) : Prop :=
  ∃ manifest, manifestCatalog.get? name = some manifest
    ∧ dependency ∈ manifest.dependencies

/-- Every requested package has a manifest, and its dependencies are
requested and of a smaller rank. -/
structure Ranked (requested : List String)
    (manifestCatalog : Dict String RuntimePackageManifest)
    (rank : String → Nat) : Prop where
  known : ∀ name ∈ requested, ∃ m, manifestCatalog.get? name = some m
  closed : ∀ name ∈ requested, ∀ dependency,
    ManifestNeeds manifestCatalog name dependency → dependency ∈ requested
  smaller : ∀ name ∈ requested, ∀ dependency,
    ManifestNeeds manifestCatalog name dependency →
      rank dependency < rank name

/-- What holds of the visits done so far. -/
structure Visited (requested : List String)
    (manifestCatalog : Dict String RuntimePackageManifest)
    (s : VisitState) : Prop where
  manifests : s.ordered.map some = s.visited.map manifestCatalog.get?
  nodup : s.visited.Nodup
  among : ∀ name ∈ s.visited, name ∈ requested
  placed : Topological (ManifestNeeds manifestCatalog) s.visited

/-- What visits of these packages do to the visits done so far: they list
the packages, and nothing of a rank above all of them. -/
structure Lists (requested : List String)
    (manifestCatalog : Dict String RuntimePackageManifest)
    (rank : String → Nat) (names : List String) (s t : VisitState) :
    Prop where
  visited : Visited requested manifestCatalog t
  keeps : ∀ name ∈ s.visited, name ∈ t.visited
  low : ∀ name ∈ t.visited, name ∈ s.visited
    ∨ ∃ visited ∈ names, rank name ≤ rank visited
  listed : ∀ name ∈ names, name ∈ t.visited

theorem lists_forM {rank : String → Nat}
    {body : String → Method VisitState PackageError Unit}
    {names : List String}
    (hbody : ∀ name ∈ names, ∀ s, Visited requested manifestCatalog s →
      ∃ t, (body name).run s = (.ok (), t)
        ∧ Lists requested manifestCatalog rank [name] s t)
    {s : VisitState} (hs : Visited requested manifestCatalog s) :
    ∃ t, (names.forM body).run s = (.ok (), t)
      ∧ Lists requested manifestCatalog rank names s t := by
  induction names generalizing s with
  | nil =>
    exact ⟨s, rfl, hs, fun _ h => h, fun _ h => Or.inl h, by simp⟩
  | cons name names ih =>
    obtain ⟨u, hrun, hu⟩ := hbody name List.mem_cons_self s hs
    obtain ⟨t, hrest, ht⟩ := ih
      (fun other hother => hbody other (List.mem_cons_of_mem _ hother))
      hu.visited
    refine ⟨t, ?_, ht.visited, fun x hx => ht.keeps x (hu.keeps x hx),
      fun x hx => ?_, fun x hx => ?_⟩
    · show (body name >>= fun _ => names.forM body).run s = _
      exact (run_bind_of_ok hrun).trans hrest
    · rcases ht.low x hx with hx | ⟨other, hother, hle⟩
      · rcases hu.low x hx with hx | ⟨other, hother, hle⟩
        · exact Or.inl hx
        · rw [List.mem_singleton.1 hother] at hle
          exact Or.inr ⟨name, List.mem_cons_self, hle⟩
      · exact Or.inr ⟨other, List.mem_cons_of_mem _ hother, hle⟩
    · rcases List.mem_cons.1 hx with rfl | hx
      · exact ht.keeps x (hu.listed x List.mem_cons_self)
      · exact ht.listed x hx

theorem Visited.concat {s : VisitState}
    (h : Visited requested manifestCatalog s) {name : String}
    {manifest : RuntimePackageManifest} (hname : name ∈ requested)
    (hget : manifestCatalog.get? name = some manifest)
    (hnew : name ∉ s.visited)
    (hneeds : ∀ dependency ∈ manifest.dependencies, dependency ∈ s.visited) :
    Visited requested manifestCatalog
      ⟨s.ordered ++ [manifest], s.visited ++ [name]⟩ := by
  refine ⟨?_, ?_, fun x hx => ?_, ?_⟩
  · simp only [List.map_append, List.map_cons, List.map_nil, h.manifests,
      hget]
  · exact List.nodup_append.2 ⟨h.nodup, List.nodup_singleton _,
      fun x hx y hy heq => hnew (by
        rwa [← List.mem_singleton.1 hy, ← heq])⟩
  · rcases List.mem_append.1 hx with hx | hx
    · exact h.among x hx
    · rwa [List.mem_singleton.1 hx]
  · refine h.placed.concat fun dependency hneed => ?_
    obtain ⟨m, hm, hdependency⟩ := hneed
    rw [hget] at hm
    cases hm
    exact hneeds dependency hdependency

theorem visit_lists {rank : String → Nat}
    (hranked : Ranked requested manifestCatalog rank) :
    ∀ (bound : Nat) (name : String) (visiting : List String),
      rank name = bound → name ∈ requested →
      (∀ other ∈ visiting, bound < rank other) →
      ∀ s, Visited requested manifestCatalog s →
        ∃ t, (visit requested manifestCatalog visiting name).run s
            = (.ok (), t)
          ∧ Lists requested manifestCatalog rank [name] s t := by
  intro bound
  induction bound using Nat.strongRecOn with
  | ind bound ih =>
    intro name visiting hrank hname hopen s hs
    unfold visit
    rw [run_read_bind]
    by_cases hvisited : name ∈ s.visited
    · rw [if_pos hvisited]
      refine ⟨s, rfl, hs, fun _ h => h, fun _ h => Or.inl h, ?_⟩
      simpa using hvisited
    · have hclosed : name ∉ visiting := fun hmem => by
        have hlt := hopen name hmem
        omega
      obtain ⟨manifest, hget⟩ := hranked.known name hname
      rw [if_neg hvisited, dif_neg hclosed]
      have hneeds : ∀ dependency ∈ manifest.dependencies,
          ManifestNeeds manifestCatalog name dependency :=
        fun dependency hdependency => ⟨manifest, hget, hdependency⟩
      -- the dependencies, each below the package
      obtain ⟨u, hrun, hu⟩ : ∃ u, (manifest.dependencies.forM
          fun dependency =>
            if dependency ∉ requested then
              raise (.valueError ("Package '" ++ name
                ++ "' requires dependency '" ++ dependency
                ++ "' to be selected"))
            else visit requested manifestCatalog (name :: visiting)
              dependency).run s = (.ok (), u)
          ∧ Lists requested manifestCatalog rank manifest.dependencies s u
          := by
        refine lists_forM (fun dependency hdependency v hv => ?_) hs
        have hneed := hneeds dependency hdependency
        have hin := hranked.closed name hname dependency hneed
        have hlt := hranked.smaller name hname dependency hneed
        have hbelow : ∀ other ∈ name :: visiting,
            rank dependency < rank other := by
          intro other hother
          rcases List.mem_cons.1 hother with rfl | hother
          · exact hlt
          · have := hopen other hother
            omega
        rw [if_neg (not_not_intro hin)]
        exact ih (rank dependency) (by omega) dependency
          (name :: visiting) rfl hin hbelow v hv
      have hnew : name ∉ u.visited := fun hmem => by
        rcases hu.low name hmem with hmem | ⟨dependency, hdependency, hle⟩
        · exact hvisited hmem
        · have hlt := hranked.smaller name hname dependency
            (hneeds dependency hdependency)
          omega
      refine ⟨⟨u.ordered ++ [manifest], u.visited ++ [name]⟩, ?_,
        hu.visited.concat hname hget hnew hu.listed, fun x hx => ?_,
        fun x hx => ?_, fun x hx => ?_⟩
      · split
        · next hnone =>
          rw [hget] at hnone
          cases hnone
        · next m hm =>
          rw [hget] at hm
          cases hm
          exact run_bind_of_ok hrun
      · exact List.mem_append_left _ (hu.keeps x hx)
      · rcases List.mem_append.1 hx with hx | hx
        · rcases hu.low x hx with hx | ⟨dependency, hdependency, hle⟩
          · exact Or.inl hx
          · have hlt := hranked.smaller name hname dependency
              (hneeds dependency hdependency)
            exact Or.inr ⟨name, List.mem_singleton_self _, by omega⟩
        · exact Or.inr ⟨x, hx, le_refl _⟩
      · exact List.mem_append_right _ hx

/-- What the order is. -/
structure OrderedManifests (requested : List String)
    (manifestCatalog : Dict String RuntimePackageManifest)
    (names : List String) (ordered : List RuntimePackageManifest) :
    Prop where
  manifests : ordered.map some = names.map manifestCatalog.get?
  nodup : names.Nodup
  covers : ∀ name, name ∈ names ↔ name ∈ requested
  placed : Topological (ManifestNeeds manifestCatalog) names

/-- The order is found where the requested packages are closed and have no
cycle. -/
theorem orderPackageManifests_spec {rank : String → Nat}
    (hranked : Ranked requested manifestCatalog rank) :
    ∃ names ordered,
      orderPackageManifests requested manifestCatalog = .ok ordered
      ∧ OrderedManifests requested manifestCatalog names ordered := by
  have hsame : requested.map canonicalFirstPartyName = requested :=
    (List.map_congr_left fun name _ => canonicalFirstPartyName_eq name).trans
      (List.map_id requested)
  have hinit : Visited requested manifestCatalog ⟨[], []⟩ :=
    ⟨rfl, List.nodup_nil, by simp, topological_nil⟩
  obtain ⟨t, hrun, ht⟩ : ∃ t, (requested.forM fun name =>
      visit requested manifestCatalog [] name).run ⟨[], []⟩ = (.ok (), t)
      ∧ Lists requested manifestCatalog rank requested ⟨[], []⟩ t :=
    lists_forM (fun name hname s hs => visit_lists hranked (rank name) name
      [] rfl hname (by simp) s hs) hinit
  refine ⟨t.visited, t.ordered, ?_, ht.visited.manifests, ht.visited.nodup,
    fun name => ⟨ht.visited.among name, ht.listed name⟩, ht.visited.placed⟩
  unfold orderPackageManifests
  rw [hsame]
  dsimp only
  rw [hrun]

end WeaveRuntime.Packages
