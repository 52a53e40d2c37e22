/-
Labelled transition systems with a partial step function, and what
holds along their runs.

Every stateful component of this development (a tool orchestrator, a
mailbox, a job service, a task list) is read as one `System`: a step
function that is `none` where an action is disabled. A schedule is a
list of actions, `run` folds the step function over it, and the two
run-level notions everything else is stated with are

- `Visits s as t`: the run of `as` from `s` passes through the state `t`;
- `Takes s as t a t'`: the run of `as` from `s` takes the step `a` from
  `t` to `t'`.

# The three rules

`visits_invariant` is the safety rule: what holds at the start and is
kept by every step holds at every state of a run.

`visits_iff_takes` is the rule for a property that some steps break.
Under an invariant, where a property is lost by exactly the steps that
fail a condition, it holds at every state of a run exactly when every
step of the run meets the condition. The condition is read off the
state BEFORE the step, so the rule turns a one-step analysis into an
exact account of the runs.

`passes_iff_takes` is the same for what two states of a run have to do
with each other, such as that something once reached is never left.
-/
import Mathlib.Data.List.Induction

namespace WeaveRuntime.Lib

/-- A deterministic labelled transition system; `none` is a disabled
action. Whatever the environment chooses is part of the action. -/
structure System (σ : Type u) (α : Type v) where
  step : σ → α → Option σ

namespace System

variable {σ : Type u} {α : Type v} (M : System σ α)

-- ================ runs

/-- Run a schedule, failing on the first disabled action. -/
def run (s : σ) : List α → Option σ
  | [] => some s
  | a :: as =>
    match M.step s a with
    | some s' => run s' as
    | none => none

/-- The run of `as` from `s` passes through `t`. -/
def Visits (s : σ) (as : List α) (t : σ) : Prop :=
  ∃ p q, as = p ++ q ∧ M.run s p = some t

def Takes (s : σ) (as : List α) (t : σ) (a : α) (t' : σ) : Prop :=
  ∃ p q, as = p ++ a :: q ∧ M.run s p = some t ∧ M.step t a = some t'

/-- The run of `as` from `s` passes through `u` and then, or at once,
through `v`. -/
def Passes (s : σ) (as : List α) (u v : σ) : Prop :=
  ∃ p q r, as = p ++ q ++ r ∧ M.run s p = some u ∧ M.run u q = some v

/-- Some schedule leads from `s` to `t`. -/
def Reachable (s t : σ) : Prop := ∃ as, M.run s as = some t

variable {M}

@[simp] theorem run_nil (s : σ) : M.run s [] = some s := rfl

variable {G : σ → α → Prop} {I : σ → Prop} {a : α} {as : List α} {s t t' : σ}

theorem run_cons_of_step {s' : σ} (h : M.step s a = some s') :
    M.run s (a :: as) = M.run s' as := by
  simp only [run, h]

theorem run_cons_eq_some :
    M.run s (a :: as) = some t
      ↔ ∃ s', M.step s a = some s' ∧ M.run s' as = some t := by
  simp only [run]
  cases h : M.step s a with
  | none => simp
  | some s' => simp

theorem run_append {p q : List α} :
    M.run s (p ++ q) = (M.run s p).bind fun t => M.run t q := by
  induction p generalizing s with
  | nil => rfl
  | cons a p ih =>
    simp only [List.cons_append, run]
    cases M.step s a with
    | none => rfl
    | some s' => exact ih

theorem run_append_eq_some {p q : List α} :
    M.run s (p ++ q) = some t
      ↔ ∃ m, M.run s p = some m ∧ M.run m q = some t := by
  rw [run_append, Option.bind_eq_some_iff]

theorem run_concat_eq_some :
    M.run s (as ++ [a]) = some t
      ↔ ∃ m, M.run s as = some m ∧ M.step m a = some t := by
  rw [run_append_eq_some]
  constructor
  · rintro ⟨m, hm, ha⟩
    obtain ⟨t', hstep, ht'⟩ := run_cons_eq_some.1 ha
    cases ht'
    exact ⟨m, hm, hstep⟩
  · rintro ⟨m, hm, ha⟩
    exact ⟨m, hm, run_cons_eq_some.2 ⟨t, ha, rfl⟩⟩

/-- A run ends at the first disabled action. -/
example : ((⟨fun s a => if a ≤ s then some (s - a) else none⟩ :
      System Nat Nat).run 5 [2, 3],
    (⟨fun s a => if a ≤ s then some (s - a) else none⟩ :
      System Nat Nat).run 5 [2, 4, 0]) = (some 0, none) := by
  decide

theorem Reachable.refl (s : σ) : M.Reachable s s := ⟨[], rfl⟩

-- ==== what a run passes through

theorem Visits.start (s : σ) (as : List α) : M.Visits s as s :=
  ⟨[], as, rfl, rfl⟩

theorem Visits.finish (h : M.run s as = some t) : M.Visits s as t :=
  ⟨as, [], (List.append_nil as).symm, h⟩

/-- A run visits both ends of each step it takes. -/
theorem Takes.visits (h : M.Takes s as t a t') :
    M.Visits s as t ∧ M.Visits s as t' := by
  obtain ⟨p, q, rfl, hp, hstep⟩ := h
  refine ⟨⟨p, a :: q, rfl, hp⟩, ⟨p ++ [a], q, by simp, ?_⟩⟩
  exact run_concat_eq_some.2 ⟨t, hp, hstep⟩

theorem Visits.cons {s' : σ} (hstep : M.step s a = some s')
    (h : M.Visits s' as t) : M.Visits s (a :: as) t := by
  obtain ⟨p, q, rfl, hp⟩ := h
  refine ⟨a :: p, q, rfl, ?_⟩
  rw [run_cons_of_step hstep]
  exact hp

theorem Visits.reachable (h : M.Visits s as t) : M.Reachable s t := by
  obtain ⟨p, -, -, hp⟩ := h
  exact ⟨p, hp⟩

-- =========== the rules

/-- The run rule: what holds at the start and is kept by every step
holds at the end of every run. -/
theorem run_invariant (hstep : ∀ s a s', I s → M.step s a = some s' → I s')
    (hs : I s) (h : M.run s as = some t) : I t := by
  induction as generalizing s with
  | nil =>
    cases h
    exact hs
  | cons a as ih =>
    obtain ⟨s', ha, has⟩ := run_cons_eq_some.1 h
    exact ih (hstep s a s' hs ha) has

/-- The run rule where something else is known of every state the run
visits. -/
theorem run_invariant_of_visits {C : σ → Prop}
    (hstep : ∀ s a s', C s → C s' → I s → M.step s a = some s' → I s')
    (hs : I s) (hC : ∀ u, M.Visits s as u → C u) (h : M.run s as = some t) :
    I t := by
  induction as generalizing s with
  | nil =>
    cases h
    exact hs
  | cons a as ih =>
    obtain ⟨s', ha, has⟩ := run_cons_eq_some.1 h
    have hC' : ∀ u, M.Visits s' as u → C u :=
      fun u hu => hC u (hu.cons ha)
    exact ih (hstep s a s' (hC s (Visits.start s _))
      (hC' s' (Visits.start s' as)) hs ha) hC' has

/-- The run rule at every state the run visits. -/
theorem visits_invariant (hstep : ∀ s a s', I s → M.step s a = some s' → I s')
    (hs : I s) (h : M.Visits s as t) : I t := by
  obtain ⟨p, -, -, hp⟩ := h
  exact run_invariant hstep hs hp

/-- The run rule for reachable states. -/
theorem reachable_invariant
    (hstep : ∀ s a s', I s → M.step s a = some s' → I s') (hs : I s)
    (h : M.Reachable s t) : I t := by
  obtain ⟨as, has⟩ := h
  exact run_invariant hstep hs has

/-- The run rule for a property that only some steps keep: where every
step of the run meets the condition under which a step keeps it, it
holds at every state of the run. -/
theorem visits_of_takes {P : σ → Prop}
    (hInv : ∀ s a s', I s → M.step s a = some s' → I s')
    (hgood : ∀ s a s', I s → P s → M.step s a = some s' → G s a → P s')
    (hs : I s) (hP : P s) (hall : ∀ u a u', M.Takes s as u a u' → G u a)
    (h : M.Visits s as t) : P t := by
  obtain ⟨p, q, rfl, hp⟩ := h
  -- by induction on the prefix, from its last step
  induction p using List.reverseRecOn generalizing q t with
  | nil =>
    cases hp
    exact hP
  | append_singleton p a ih =>
    obtain ⟨m, hm, hstep⟩ := run_concat_eq_some.1 hp
    have htake : M.Takes s (p ++ [a] ++ q) m a t :=
      ⟨p, q, by simp, hm, hstep⟩
    have hPm : P m := by
      refine ih (a :: q) hm ?_
      intro u b u' hu
      exact hall u b u' (by simpa using hu)
    exact hgood m a t (run_invariant hInv hs hm) hPm hstep
      (hall m a t htake)

/-- The exact run rule: where a step from a state with the property
keeps it exactly when it meets the condition, the property holds at
every state of a run exactly when every step of the run meets it. -/
theorem visits_iff_takes {P : σ → Prop}
    (hInv : ∀ s a s', I s → M.step s a = some s' → I s')
    (hgood : ∀ s a s', I s → P s → M.step s a = some s' → (P s' ↔ G s a))
    (hs : I s) (hP : P s) :
    (∀ t, M.Visits s as t → P t) ↔ ∀ t a t', M.Takes s as t a t' → G t a := by
  constructor
  · intro hall t a t' htake
    obtain ⟨hv, hv'⟩ := htake.visits
    obtain ⟨p, q, -, hp, hstep⟩ := htake
    exact (hgood t a t' (run_invariant hInv hs hp) (hall t hv) hstep).1
      (hall t' hv')
  · intro hall t ht
    exact visits_of_takes hInv
      (fun u a u' hu hPu hstep => (hgood u a u' hu hPu hstep).2)
      hs hP hall ht

/-- Where the steps that meet the condition keep the invariant, it holds
before and after every step of a run whose steps all meet it. -/
theorem invariant_of_takes
    (hI : ∀ s a s', I s → M.step s a = some s' → G s a → I s') (hs : I s)
    (hall : ∀ u a u', M.Takes s as u a u' → G u a) (h : M.Visits s as t) :
    I t :=
  visits_of_takes (I := fun _ => True) (fun _ _ _ _ _ => trivial)
    (fun u a u' _ hu hstep => hI u a u' hu hstep) trivial hs hall h

/-- The exact rule for what is asked of each step, over a run whose
actions lie in a domain: where it is met by exactly the steps that meet
the condition, every step of the run meets the one exactly when every step
meets the other. -/
theorem takes_iff_takes_of_mem {D : α → Prop} {F : σ → α → Prop}
    (hI : ∀ s a s', I s → D a → M.step s a = some s' → G s a → I s')
    (hiff : ∀ s a s', I s → D a → M.step s a = some s' → (F s a ↔ G s a))
    (hs : I s) (hD : ∀ a ∈ as, D a) :
    (∀ t a t', M.Takes s as t a t' → F t a)
      ↔ ∀ t a t', M.Takes s as t a t' → G t a := by
  have hmem : ∀ {p q : List α} {a : α}, as = p ++ a :: q → D a :=
    fun heq => hD _ (heq ▸ List.mem_append_right _ (List.mem_cons_self ..))
  have hfront : ∀ p q, as = p ++ q →
      ((∀ t a t', M.Takes s as t a t' → F t a)
        ∨ ∀ t a t', M.Takes s as t a t' → G t a) →
      ∀ t, M.run s p = some t → I t := by
    intro p
    induction p using List.reverseRecOn with
    | nil =>
      intro q _ _ t ht
      cases ht
      exact hs
    | append_singleton p a ih =>
      intro q heq hor t ht
      obtain ⟨m, hm, hstep⟩ := run_concat_eq_some.1 ht
      have hsplit : as = p ++ a :: q := by
        rw [heq, List.append_assoc, List.singleton_append]
      have hIm := ih (a :: q) hsplit hor m hm
      have htake : M.Takes s as m a t := ⟨p, q, hsplit, hm, hstep⟩
      refine hI m a t hIm (hmem hsplit) hstep ?_
      rcases hor with hF | hG
      · exact (hiff m a t hIm (hmem hsplit) hstep).1 (hF m a t htake)
      · exact hG m a t htake
  refine ⟨fun hF t a t' htake => ?_, fun hG t a t' htake => ?_⟩
  · obtain ⟨p, q, heq, hp, hstep⟩ := htake
    exact (hiff t a t' (hfront p _ heq (Or.inl hF) t hp) (hmem heq)
      hstep).1 (hF t a t' ⟨p, q, heq, hp, hstep⟩)
  · obtain ⟨p, q, heq, hp, hstep⟩ := htake
    exact (hiff t a t' (hfront p _ heq (Or.inr hG) t hp) (hmem heq)
      hstep).2 (hG t a t' ⟨p, q, heq, hp, hstep⟩)

/-- The exact rule for what is asked of each step, over any run. -/
theorem takes_iff_takes {F : σ → α → Prop}
    (hI : ∀ s a s', I s → M.step s a = some s' → G s a → I s')
    (hiff : ∀ s a s', I s → M.step s a = some s' → (F s a ↔ G s a))
    (hs : I s) :
    (∀ t a t', M.Takes s as t a t' → F t a)
      ↔ ∀ t a t', M.Takes s as t a t' → G t a :=
  takes_iff_takes_of_mem (D := fun _ => True)
    (fun u a u' hu _ => hI u a u' hu) (fun u a u' hu _ => hiff u a u' hu) hs
    fun _ _ => trivial

/-- The exact rule where the property that is asked of the states is
carried by a stronger invariant. -/
theorem visits_iff_takes_of_invariant {P : σ → Prop} (hIP : ∀ s, I s → P s)
    (hgood : ∀ s a s', I s → M.step s a = some s' → G s a → I s')
    (hbad : ∀ s a s', I s → M.step s a = some s' → ¬ G s a → ¬ P s')
    (hs : I s) :
    (∀ t, M.Visits s as t → P t) ↔ ∀ t a t', M.Takes s as t a t' → G t a := by
  have hiff : ∀ u a u', I u → M.step u a = some u' →
      ((∀ v, M.step u a = some v → P v) ↔ G u a) := by
    intro u a u' hu hstep
    refine ⟨fun hP => ?_, fun hG v hv => hIP v (hgood u a v hu hv hG)⟩
    by_contra hG
    exact hbad u a u' hu hstep hG (hP u' hstep)
  refine ⟨fun hall => ?_, fun hall t ht => ?_⟩
  · refine (takes_iff_takes hgood hiff hs).1 fun t a t' htake v hv => ?_
    obtain ⟨p, q, heq, hp, hstep⟩ := htake
    rw [hstep] at hv
    cases hv
    exact hall t' (Takes.visits ⟨p, q, heq, hp, hstep⟩).2
  · exact hIP t (invariant_of_takes hgood hs hall ht)

theorem takes_cons {s' : σ} {b : α} (hstep : M.step s a = some s') :
    M.Takes s (a :: as) t b t'
      ↔ (t = s ∧ b = a ∧ t' = s') ∨ M.Takes s' as t b t' := by
  refine ⟨fun h => ?_, fun h => ?_⟩
  · obtain ⟨p, q, heq, hp, hb⟩ := h
    cases p with
    | nil =>
      cases heq
      cases hp
      rw [hstep] at hb
      cases hb
      exact Or.inl ⟨rfl, rfl, rfl⟩
    | cons c p =>
      cases heq
      rw [run_cons_of_step hstep] at hp
      exact Or.inr ⟨p, q, rfl, hp, hb⟩
  · rcases h with ⟨rfl, rfl, rfl⟩ | h
    · exact ⟨[], as, rfl, rfl, hstep⟩
    · obtain ⟨p, q, rfl, hp, hb⟩ := h
      exact ⟨a :: p, q, rfl, by rw [run_cons_of_step hstep]; exact hp, hb⟩

variable (M) in
/-- Every step of a run passes the check. -/
def checks (check : σ → α → Bool) : σ → List α → Bool
  | _, [] => true
  | s, a :: as =>
    check s a && ((M.step s a).all fun s' => checks check s' as)

/-- What the check of a fixed run says of its steps. -/
theorem check_of_takes {check : σ → α → Bool} (h : M.checks check s as = true)
    (htakes : M.Takes s as t a t') : check t a = true := by
  induction as generalizing s with
  | nil =>
    obtain ⟨p, q, heq, -⟩ := htakes
    cases p with
    | nil => cases heq
    | cons b p => cases heq
  | cons b as ih =>
    obtain ⟨hcheck, hrest⟩ := (Bool.and_eq_true ..).mp h
    cases hstep : M.step s b with
    | none =>
      obtain ⟨p, q, heq, hp, -⟩ := htakes
      cases p with
      | nil =>
        cases heq
        cases hp
        exact hcheck
      | cons c p =>
        cases heq
        obtain ⟨s', hs', -⟩ := run_cons_eq_some.1 hp
        rw [hstep] at hs'
        cases hs'
    | some s' =>
      rcases (takes_cons hstep).1 htakes with ⟨rfl, rfl, -⟩ | htakes
      · exact hcheck
      · rw [hstep] at hrest
        exact ih hrest htakes

/-- The rule for a fault that is never repaired, where something else is
known of every state the run visits: if the steps that fail the condition
lead from the good states to the bad ones, and no step leads out of these,
a run ends in a good state exactly when every step of it meets the
condition. -/
theorem run_iff_takes_of_visits {A B C : σ → Prop}
    (hgood : ∀ s a s', C s → C s' → A s → M.step s a = some s' → G s a →
      A s')
    (hbad : ∀ s a s', C s → C s' → A s → M.step s a = some s' → ¬ G s a →
      B s') (hstay : ∀ s a s', C s → C s' → B s → M.step s a = some s' → B s')
    (hAB : ∀ s, C s → A s → ¬ B s) (hs : A s)
    (hC : ∀ u, M.Visits s as u → C u) (hrun : M.run s as = some t) :
    A t ↔ ∀ u a u', M.Takes s as u a u' → G u a := by
  induction as generalizing s with
  | nil =>
    cases hrun
    refine iff_of_true hs fun u a u' h => ?_
    obtain ⟨p, q, heq, -⟩ := h
    cases p with
    | nil => cases heq
    | cons b p => cases heq
  | cons a as ih =>
    obtain ⟨s', hstep, hrest⟩ := run_cons_eq_some.1 hrun
    have hCs := hC s (Visits.start s _)
    have hC' : ∀ u, M.Visits s' as u → C u :=
      fun u hu => hC u (hu.cons hstep)
    have hCs' := hC' s' (Visits.start s' as)
    by_cases hG : G s a
    · rw [ih (hgood s a s' hCs hCs' hs hstep hG) hC' hrest]
      refine ⟨fun h u b u' htake => ?_, fun h u b u' htake =>
        h u b u' ((takes_cons hstep).2 (Or.inr htake))⟩
      rcases (takes_cons hstep).1 htake with ⟨rfl, rfl, -⟩ | htake
      · exact hG
      · exact h u b u' htake
    · refine iff_of_false ?_ fun h =>
        hG (h s a s' ((takes_cons hstep).2 (Or.inl ⟨rfl, rfl, rfl⟩)))
      have hBt : B t := run_invariant_of_visits hstay
        (hbad s a s' hCs hCs' hs hstep hG) hC' hrest
      exact fun hA => hAB t (hC' t (Visits.finish hrest)) hA hBt

/-- The rule for a fault that is never repaired. -/
theorem run_iff_takes {A B : σ → Prop}
    (hgood : ∀ s a s', A s → M.step s a = some s' → G s a → A s')
    (hbad : ∀ s a s', A s → M.step s a = some s' → ¬ G s a → B s')
    (hstay : ∀ s a s', B s → M.step s a = some s' → B s')
    (hAB : ∀ s, A s → ¬ B s) (hs : A s) (hrun : M.run s as = some t) :
    A t ↔ ∀ u a u', M.Takes s as u a u' → G u a :=
  run_iff_takes_of_visits (C := fun _ => True)
    (fun u a u' _ _ hu => hgood u a u' hu)
    (fun u a u' _ _ hu => hbad u a u' hu)
    (fun u a u' _ _ hu => hstay u a u' hu)
    (fun u _ hu => hAB u hu) hs (fun _ _ => trivial) hrun

/-- A step a run takes leads from one state it passes through to the
next. -/
theorem Takes.passes (h : M.Takes s as t a t') : M.Passes s as t t' := by
  obtain ⟨p, q, rfl, hp, hstep⟩ := h
  refine ⟨p, [a], q, by simp, hp, ?_⟩
  rw [run_cons_of_step hstep]
  rfl

/-- The pair rule: a preorder holds between any two states of a run, the
earlier and the later one, exactly when every step of the run moves along
it. -/
theorem passes_iff_takes {R : σ → σ → Prop} (hrefl : ∀ u, R u u)
    (htrans : ∀ u v w, R u v → R v w → R u w) :
    (∀ u v, M.Passes s as u v → R u v)
      ↔ ∀ t a t', M.Takes s as t a t' → R t t' := by
  constructor
  · intro hall t a t' htake
    exact hall t t' htake.passes
  · intro hall u v huv
    obtain ⟨p, q, r, rfl, hp, hq⟩ := huv
    -- by induction on what leads from the one to the other
    induction q generalizing p u with
    | nil =>
      cases hq
      exact hrefl _
    | cons a q ih =>
      obtain ⟨m, hstep, hrest⟩ := run_cons_eq_some.1 hq
      have htake : M.Takes s (p ++ a :: q ++ r) u a m :=
        ⟨p, q ++ r, by simp, hp, hstep⟩
      refine htrans u m v (hall u a m htake) ?_
      refine ih m (p ++ [a]) ?_ (run_concat_eq_some.2 ⟨u, hp, hstep⟩)
        hrest
      intro t b t' ht
      exact hall t b t' (by simpa using ht)

end System

end WeaveRuntime.Lib
