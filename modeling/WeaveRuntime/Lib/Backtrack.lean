/-
Backtracking in continuation-passing style.

A `Search` is a method that ends with nothing, which is success, or with a
failure. A `Step` is a search with a hole: what it does before it goes on
with the continuation it is given. A step that has alternatives hands the
same continuation to each of them in turn, and puts the state back between
two (`tryEach`), so an alternative is judged by how the whole rest of the
search ends.

# Three statements about a step

- `Leads`: where the search succeeds, its continuation did, from a state
  the step is known to reach. What an abandoned alternative left behind
  cannot be in that state.
- `Returns`, over the continuations that return: the step raises nothing of
  its own (`Calm`).
- `Finds`: where the continuation succeeds from the states the step is
  known to reach, and returns from the others, the search succeeds. One
  alternative that finds is enough, whatever the ones before it do.

Each holds of a composition where it holds of the parts (`Leads.comp`,
`Calm.comp`, `Finds.comp`) and of `tryEach` where it holds of the
alternatives.
-/
import WeaveRuntime.Lib.Method

namespace WeaveRuntime.Lib.Backtrack

open Method

variable {σ ε φ α : Type}

/-- Success is `none`. -/
abbrev Search (σ ε φ : Type) := Method σ ε (Option φ)

/-- A search up to its continuation. -/
abbrev Step (σ ε φ : Type) := Search σ ε φ → Search σ ε φ

/-- Try the alternatives in turn, each from the state as it is here; the
first failure is the one that is reported. -/
def tryEach (branch : α → Method σ ε (Option φ)) (failures : List φ) :
    List α → Method σ ε (Option φ)
  | [] => pure failures.head?
  | x :: xs => do
    let snapshot ← read id
    let failure ← branch x
    match failure with
    | none => return none
    | some failure =>
      write fun _ => snapshot
      tryEach branch (failures ++ [failure]) xs

-- ============ outcomes

def Succeeds (m : Search σ ε φ) (s t : σ) : Prop := m.run s = (.ok none, t)

/-- The search raises nothing from `s`. -/
def Returns (m : Search σ ε φ) (s : σ) : Prop := ∃ r, (m.run s).1 = .ok r

variable {P Q : σ → Prop} {branch : α → Step σ ε φ} {f : Step σ ε φ}
  {failures : List φ} {g : Step σ ε φ} {s : σ} {step step' : Step σ ε φ}

theorem Succeeds.returns {m : Search σ ε φ} {t : σ} (h : Succeeds m s t) :
    Returns m s := ⟨none, by rw [h]⟩

section TryEach

variable {branch : α → Search σ ε φ} {failures : List φ} {x : α}
  {xs : List α} {s t : σ}

theorem succeeds_tryEach_cons (h : Succeeds (branch x) s t) :
    Succeeds (tryEach branch failures (x :: xs)) s t := by
  unfold Succeeds tryEach
  rw [run_read_bind]
  exact run_bind_of_ok h

theorem run_tryEach_of_failed {f : φ}
    (h : (branch x).run s = (.ok (some f), t)) :
    (tryEach branch failures (x :: xs)).run s
      = (tryEach branch (failures ++ [f]) xs).run s := by
  conv_lhs => unfold tryEach
  rw [run_read_bind]
  exact run_bind_of_ok h

theorem run_tryEach_of_raised {e : ε} (h : (branch x).run s = (.error e, t)) :
    (tryEach branch failures (x :: xs)).run s = (.error e, t) := by
  unfold tryEach
  rw [run_read_bind]
  exact run_bind_of_error h

end TryEach

-- =============== leads

/-- Where the search succeeds, so did its continuation, from a state `Q`
holds of. -/
def Leads (step : Step σ ε φ) (s : σ) (Q : σ → Prop) : Prop :=
  ∀ k t, Succeeds (step k) s t → ∃ u, Q u ∧ Succeeds k u t

theorem Leads.mono (h : Leads step s P) (hPQ : ∀ u, P u → Q u) :
    Leads step s Q := by
  intro k t hk
  obtain ⟨u, hu, hsucceeds⟩ := h k t hk
  exact ⟨u, hPQ u hu, hsucceeds⟩

theorem leads_id (h : Q s) : Leads (fun k : Search σ ε φ => k) s Q :=
  fun _ _ hk => ⟨s, h, hk⟩

theorem Leads.comp (hf : Leads f s P) (hg : ∀ u, P u → Leads g u Q) :
    Leads (fun k => f (g k)) s Q := by
  intro k t hk
  obtain ⟨u, hu, hsucceeds⟩ := hf (g k) t hk
  exact hg u hu k t hsucceeds

theorem Leads.of_run {s' : σ} (h : Leads step' s' Q)
    (hrun : ∀ k, (step k).run s = (step' k).run s') : Leads step s Q := by
  intro k t hk
  rw [Succeeds, hrun k] at hk
  exact h k t hk

theorem leads_never (h : ∀ k t, ¬ Succeeds (step k) s t) : Leads step s Q :=
  fun k t hk => absurd hk (h k t)

theorem leads_tryEach {xs : List α} (hne : xs ≠ [] ∨ failures ≠ [])
    (h : ∀ x ∈ xs, Leads (branch x) s Q) :
    Leads (fun k => tryEach (fun x => branch x k) failures xs) s Q := by
  induction xs generalizing failures with
  | nil =>
    refine leads_never fun k t hk => ?_
    cases failures with
    | nil => simp at hne
    | cons f fs => simp [Succeeds, tryEach] at hk
  | cons x xs ih =>
    intro k t hk
    unfold Succeeds at hk
    cases hrun : (branch x k).run s with
    | mk r u =>
      cases r with
      | error e =>
        have hraised : (tryEach (fun x => branch x k) failures
            (x :: xs)).run s = _ := run_tryEach_of_raised hrun
        rw [hraised] at hk
        cases hk
      | ok o =>
        cases o with
        | none =>
          have hends : (tryEach (fun x => branch x k) failures
              (x :: xs)).run s = _ := succeeds_tryEach_cons hrun
          rw [hends] at hk
          cases hk
          exact h x List.mem_cons_self k t hrun
        | some f =>
          have hnext : (tryEach (fun x => branch x k) failures
              (x :: xs)).run s = _ := run_tryEach_of_failed hrun
          rw [hnext] at hk
          exact ih (Or.inr (by simp))
            (fun y hy => h y (List.mem_cons_of_mem _ hy)) k t hk

-- ================ calm

/-- The step raises nothing of its own: where the continuation returns from
the states `I` holds of, so does the search. -/
def Calm (I : σ → Prop) (step : Step σ ε φ) (s : σ) : Prop :=
  ∀ k, (∀ u, I u → Returns k u) → Returns (step k) s

variable {I : σ → Prop}

theorem calm_id (h : I s) :
    Calm I (fun k : Search σ ε φ => k) s := fun _ hk => hk s h

theorem calm_pure (failure : Option φ) :
    Calm I (fun _ => (pure failure : Method σ ε (Option φ))) s :=
  fun _ _ => ⟨failure, rfl⟩

theorem Calm.comp (hf : Calm I f s) (hg : ∀ u, I u → Calm I g u) :
    Calm I (fun k => f (g k)) s :=
  fun k hk => hf (g k) fun u hu => hg u hu k hk

theorem Calm.of_run {s' : σ} (h : Calm I step' s')
    (hrun : ∀ k, (step k).run s = (step' k).run s') : Calm I step s := by
  intro k hk
  unfold Returns
  rw [hrun k]
  exact h k hk

theorem calm_tryEach {xs : List α} (h : ∀ x ∈ xs, Calm I (branch x) s) :
    Calm I (fun k => tryEach (fun x => branch x k) failures xs) s := by
  intro k hk
  induction xs generalizing failures with
  | nil => exact ⟨failures.head?, rfl⟩
  | cons x xs ih =>
    obtain ⟨r, hr⟩ := h x List.mem_cons_self k hk
    have hrun : (branch x k).run s = (.ok r, ((branch x k).run s).2) :=
      Prod.ext hr rfl
    cases r with
    | none =>
      exact Succeeds.returns (succeeds_tryEach_cons hrun)
    | some f =>
      have hnext : (tryEach (fun x => branch x k) failures
          (x :: xs)).run s = _ := run_tryEach_of_failed hrun
      unfold Returns
      dsimp only
      rw [hnext]
      exact ih fun y hy => h y (List.mem_cons_of_mem _ hy)

-- =============== finds

/-- The search succeeds where its continuation succeeds from the states `Q`
holds of, and returns from those `I` holds of. -/
def Finds (I : σ → Prop) (step : Step σ ε φ) (s : σ) (Q : σ → Prop) : Prop :=
  ∀ k, (∀ u, I u → Returns k u) → (∀ u, Q u → ∃ t, Succeeds k u t) →
    ∃ t, Succeeds (step k) s t

theorem finds_id (h : Q s) :
    Finds I (fun k : Search σ ε φ => k) s Q := fun _ _ hk => hk s h

theorem Finds.comp (hf : Finds I f s P) (hcalm : ∀ u, I u → Calm I g u)
    (hg : ∀ u, P u → Finds I g u Q) : Finds I (fun k => f (g k)) s Q :=
  fun k hI hQ => hf (g k) (fun u hu => hcalm u hu k hI)
    fun u hu => hg u hu k hI hQ

theorem Finds.of_run {s' : σ} (h : Finds I step' s' Q)
    (hrun : ∀ k, (step k).run s = (step' k).run s') : Finds I step s Q := by
  intro k hI hQ
  unfold Succeeds
  rw [hrun k]
  exact h k hI hQ

theorem finds_tryEach {xs : List α} {y : α} (hy : y ∈ xs)
    (hcalm : ∀ x ∈ xs, Calm I (branch x) s)
    (hfinds : Finds I (branch y) s Q) :
    Finds I (fun k => tryEach (fun x => branch x k) failures xs) s Q := by
  intro k hI hQ
  induction xs generalizing failures with
  | nil => cases hy
  | cons x xs ih =>
    obtain ⟨r, hr⟩ := hcalm x List.mem_cons_self k hI
    have hrun : (branch x k).run s = (.ok r, ((branch x k).run s).2) :=
      Prod.ext hr rfl
    cases r with
    | none => exact ⟨_, succeeds_tryEach_cons hrun⟩
    | some f =>
      rcases List.mem_cons.1 hy with rfl | hy
      · -- the alternative that finds does not fail
        obtain ⟨t, ht⟩ := hfinds k hI hQ
        rw [Succeeds, hrun] at ht
        cases ht
      · have hnext : (tryEach (fun x => branch x k) failures
            (x :: xs)).run s = _ := run_tryEach_of_failed hrun
        unfold Succeeds
        dsimp only
        rw [hnext]
        exact ih hy fun z hz => hcalm z (List.mem_cons_of_mem _ hz)

end WeaveRuntime.Lib.Backtrack
