/-
Code that raises, as `Except` values.

A modelled function is a `do` block over `Except`: `raiseIf` is the guard
`if condition: raise error`, and a bind stops at the first error. The
lemmas here take such a block apart, one guard or one call at a time, and
put it together again.
-/
import Mathlib.Data.List.Basic

namespace WeaveRuntime.Lib

variable {ε : Type u} {α : Type v} {β : Type v}

def raiseIf (condition : Prop) [Decidable condition] (error : ε) :
    Except ε PUnit.{v + 1} :=
  if condition then .error error else .ok ⟨⟩

/-- A value that must be there. -/
def orRaise (value : Option α) (error : ε) : Except ε α :=
  match value with
  | some a => .ok a
  | none => .error error

variable {e : ε}

theorem orRaise_eq_ok {o : Option α} {a : α} :
    orRaise o e = .ok a ↔ o = some a := by
  cases o with
  | none => simp [orRaise]
  | some b => simp [orRaise]

theorem orRaise_some (a : α) (e : ε) : orRaise (some a) e = .ok a := rfl

theorem raiseIf_eq_ok {c : Prop} [Decidable c] {u : PUnit.{v + 1}} :
    raiseIf c e = .ok u ↔ ¬ c := by
  unfold raiseIf
  by_cases h : c
  · simp [h]
  · simp [h]

theorem raiseIf_of_not {c : Prop} [Decidable c] (h : ¬ c) :
    raiseIf c e = .ok (⟨⟩ : PUnit.{v + 1}) :=
  raiseIf_eq_ok.2 h

theorem raiseIf_of {c : Prop} [Decidable c] (h : c) :
    raiseIf c e = (.error e : Except ε PUnit.{v + 1}) := if_pos h

theorem raiseIf_eq_error {c : Prop} [Decidable c] {e' : ε} :
    raiseIf c e = (.error e' : Except ε PUnit.{v + 1}) ↔ c ∧ e = e' := by
  unfold raiseIf
  by_cases h : c
  · simp [h]
  · simp [h]

variable {f : α → Except ε β} {x : Except ε α}

theorem bind_eq_ok {b : β} :
    (x >>= f) = .ok b ↔ ∃ a, x = .ok a ∧ f a = .ok b := by
  cases x with
  | error e =>
    show (Except.error e : Except ε β) = .ok b ↔ _
    simp
  | ok a =>
    show f a = .ok b ↔ _
    simp

theorem exists_bind_iff {P : Prop} (h : ∀ a, (∃ b, f a = .ok b) ↔ P) :
    (∃ b, (x >>= f) = .ok b) ↔ (∃ a, x = .ok a) ∧ P := by
  constructor
  · rintro ⟨b, hb⟩
    obtain ⟨a, ha, hb⟩ := bind_eq_ok.1 hb
    exact ⟨⟨a, ha⟩, (h a).1 ⟨b, hb⟩⟩
  · rintro ⟨⟨a, ha⟩, hP⟩
    obtain ⟨b, hb⟩ := (h a).2 hP
    exact ⟨b, bind_eq_ok.2 ⟨a, ha, hb⟩⟩

theorem bind_eq_error :
    (x >>= f) = .error e
      ↔ x = .error e ∨ ∃ a, x = .ok a ∧ f a = .error e := by
  cases x with
  | error e' =>
    show (Except.error e' : Except ε β) = .error e ↔ _
    simp
  | ok a =>
    show f a = .error e ↔ _
    simp

theorem map_eq_error {f : α → β} : x.map f = .error e ↔ x = .error e := by
  cases x with
  | error e' =>
    show (Except.error e' : Except ε β) = .error e ↔ _
    simp
  | ok a =>
    show (Except.ok (f a) : Except ε β) = .error e ↔ _
    simp

theorem exists_map_iff {f : α → β} :
    (∃ b, x.map f = .ok b) ↔ ∃ a, x = .ok a := by
  cases x with
  | error e => simp [Except.map]
  | ok a => simp [Except.map]

theorem mapError_eq_error {x : Except ε β} {w : ε → δ} {d : δ} :
    x.mapError w = .error d ↔ ∃ e, x = .error e ∧ w e = d := by
  cases x with
  | error e => simp [Except.mapError]
  | ok a => simp [Except.mapError]

theorem mapError_eq_ok {x : Except ε β} {w : ε → δ} {b : β} :
    x.mapError w = .ok b ↔ x = .ok b := by
  cases x with
  | error e => simp [Except.mapError]
  | ok a => simp [Except.mapError]

@[simp] theorem ok_bind (a : α) (f : α → Except ε β) :
    (Except.ok a >>= f) = f a := rfl

@[simp] theorem error_bind (e : ε) (f : α → Except ε β) :
    ((Except.error e : Except ε α) >>= f) = .error e := rfl

theorem foldlM_invariant {I : β → Prop} {step : β → α → Except ε β}
    (hstep : ∀ b a b', I b → step b a = .ok b' → I b') {items : List α}
    {b b' : β} (hb : I b) (h : items.foldlM step b = .ok b') : I b' := by
  induction items generalizing b with
  | nil =>
    cases h
    exact hb
  | cons a items ih =>
    rw [List.foldlM_cons, bind_eq_ok] at h
    obtain ⟨m, hm, hrest⟩ := h
    exact ih (hstep b a m hb hm) hrest

-- ==== tests that raise

section Tests

variable {ε α β : Type}

def filterRaising (test : α → Except ε Bool) : List α → Except ε (List α)
  | [] => .ok []
  | x :: xs => do
    let keep ← test x
    let rest ← filterRaising test xs
    return if keep then x :: rest else rest

def allRaising (test : α → Except ε Bool) : List α → Except ε Bool
  | [] => .ok true
  | x :: xs => do
    let holds ← test x
    if holds then allRaising test xs else return false

variable {f : α → Except ε β} {test : α → Except ε Bool} {xs : List α}

theorem mem_of_filterRaising {ys : List α}
    (h : filterRaising test xs = .ok ys) :
    ∀ x, x ∈ ys ↔ x ∈ xs ∧ test x = .ok true := by
  induction xs generalizing ys with
  | nil =>
    cases h
    simp
  | cons x xs ih =>
    obtain ⟨keep, hkeep, h⟩ := bind_eq_ok.1 h
    obtain ⟨rest, hrest, h⟩ := bind_eq_ok.1 h
    cases h
    intro y
    have hy := ih hrest y
    cases keep with
    | true =>
      rw [if_pos rfl, List.mem_cons, List.mem_cons, hy, or_and_right]
      refine or_congr_left ⟨fun heq => ⟨heq, ?_⟩, And.left⟩
      rw [heq, hkeep]
    | false =>
      rw [if_neg Bool.false_ne_true, hy, List.mem_cons, or_and_right]
      refine ⟨Or.inr, fun hor => hor.elim (fun hx => ?_) id⟩
      rw [hx.1, hkeep] at hx
      cases hx.2

theorem exists_filterRaising (h : ∀ x ∈ xs, ∃ b, test x = .ok b) :
    ∃ ys, filterRaising test xs = .ok ys := by
  induction xs with
  | nil => exact ⟨[], rfl⟩
  | cons x xs ih =>
    obtain ⟨b, hb⟩ := h x List.mem_cons_self
    obtain ⟨ys, hys⟩ := ih fun y hy => h y (List.mem_cons_of_mem _ hy)
    refine ⟨if b then x :: ys else ys, ?_⟩
    unfold filterRaising
    rw [hb, ok_bind, hys]
    rfl

theorem allRaising_eq_true :
    allRaising test xs = .ok true ↔ ∀ x ∈ xs, test x = .ok true := by
  induction xs with
  | nil => simp [allRaising]
  | cons x xs ih =>
    rw [List.forall_mem_cons, ← ih]
    conv_lhs => unfold allRaising
    rw [bind_eq_ok]
    refine ⟨fun h => ?_, fun h => ⟨true, h.1, h.2⟩⟩
    obtain ⟨holds, hx, hrest⟩ := h
    cases holds with
    | true => exact ⟨hx, hrest⟩
    | false => cases hrest

theorem exists_allRaising (h : ∀ x ∈ xs, ∃ b, test x = .ok b) :
    ∃ b, allRaising test xs = .ok b := by
  induction xs with
  | nil => exact ⟨true, rfl⟩
  | cons x xs ih =>
    obtain ⟨b, hb⟩ := h x List.mem_cons_self
    unfold allRaising
    rw [hb, ok_bind]
    cases b with
    | true => exact ih fun y hy => h y (List.mem_cons_of_mem _ hy)
    | false => exact ⟨false, rfl⟩

theorem mapM_eq_ok {ys : List β} (h : xs.mapM f = .ok ys) :
    ∀ y ∈ ys, ∃ x ∈ xs, f x = .ok y := by
  induction xs generalizing ys with
  | nil =>
    cases h
    simp
  | cons x xs ih =>
    rw [List.mapM_cons] at h
    obtain ⟨y, hy, h⟩ := bind_eq_ok.1 h
    obtain ⟨ys', hys, h⟩ := bind_eq_ok.1 h
    cases h
    intro z hz
    rcases List.mem_cons.1 hz with rfl | hz
    · exact ⟨x, List.mem_cons_self, hy⟩
    · obtain ⟨w, hw, heq⟩ := ih hys z hz
      exact ⟨w, List.mem_cons_of_mem _ hw, heq⟩

theorem exists_mapM (h : ∀ x ∈ xs, ∃ y, f x = .ok y) :
    ∃ ys, xs.mapM f = .ok ys := by
  induction xs with
  | nil => exact ⟨[], rfl⟩
  | cons x xs ih =>
    obtain ⟨y, hy⟩ := h x List.mem_cons_self
    obtain ⟨ys, hys⟩ := ih fun z hz => h z (List.mem_cons_of_mem _ hz)
    refine ⟨y :: ys, ?_⟩
    rw [List.mapM_cons, hy, ok_bind, hys]
    rfl

theorem mem_of_mapM {ys : List β} (h : xs.mapM f = .ok ys) :
    ∀ x ∈ xs, ∃ y ∈ ys, f x = .ok y := by
  induction xs generalizing ys with
  | nil => simp
  | cons x xs ih =>
    rw [List.mapM_cons] at h
    obtain ⟨y, hy, h⟩ := bind_eq_ok.1 h
    obtain ⟨ys', hys, h⟩ := bind_eq_ok.1 h
    cases h
    refine List.forall_mem_cons.2 ⟨⟨y, List.mem_cons_self, hy⟩, ?_⟩
    intro z hz
    obtain ⟨w, hw, heq⟩ := ih hys z hz
    exact ⟨w, List.mem_cons_of_mem _ hw, heq⟩

theorem exists_mapM_iff :
    (∃ ys, xs.mapM f = .ok ys) ↔ ∀ x ∈ xs, ∃ y, f x = .ok y := by
  refine ⟨fun ⟨ys, h⟩ x hx => ?_, exists_mapM⟩
  obtain ⟨y, -, hy⟩ := mem_of_mapM h x hx
  exact ⟨y, hy⟩

theorem length_of_mapM {ys : List β} (h : xs.mapM f = .ok ys) :
    ys.length = xs.length := by
  induction xs generalizing ys with
  | nil =>
    cases h
    rfl
  | cons x xs ih =>
    rw [List.mapM_cons] at h
    obtain ⟨y, -, h⟩ := bind_eq_ok.1 h
    obtain ⟨ys', hys, h⟩ := bind_eq_ok.1 h
    cases h
    rw [List.length_cons, List.length_cons, ih hys]

theorem mapM_eq_ok_of {g : α → β} (h : ∀ x ∈ xs, f x = .ok (g x)) :
    xs.mapM f = .ok (xs.map g) := by
  induction xs with
  | nil => rfl
  | cons x xs ih =>
    rw [List.mapM_cons, h x List.mem_cons_self, ok_bind,
      ih fun y hy => h y (List.mem_cons_of_mem _ hy)]
    rfl

theorem mapM_eq_error {e : ε} (h : xs.mapM f = .error e) :
    ∃ x ∈ xs, f x = .error e := by
  induction xs with
  | nil => cases h
  | cons x xs ih =>
    rw [List.mapM_cons] at h
    rcases bind_eq_error.1 h with hx | ⟨y, -, h⟩
    · exact ⟨x, List.mem_cons_self, hx⟩
    · rcases bind_eq_error.1 h with hxs | ⟨ys, -, h⟩
      · obtain ⟨z, hz, he⟩ := ih hxs
        exact ⟨z, List.mem_cons_of_mem _ hz, he⟩
      · cases h

/-- A loop whose rounds return whatever was gathered before them. -/
theorem exists_foldlM_iff {step : β → α → Except ε β} {P : α → Prop}
    (h : ∀ b x, (∃ b', step b x = .ok b') ↔ P x) (b : β) :
    (∃ b', xs.foldlM step b = .ok b') ↔ ∀ x ∈ xs, P x := by
  induction xs generalizing b with
  | nil => exact iff_of_true ⟨b, rfl⟩ (by simp)
  | cons x xs ih =>
    rw [List.foldlM_cons, exists_bind_iff fun c => ih c, h,
      List.forall_mem_cons]

theorem foldlM_eq_error {step : β → α → Except ε β} {b : β} {e : ε}
    (h : xs.foldlM step b = .error e) :
    ∃ c, ∃ x ∈ xs, step c x = .error e := by
  induction xs generalizing b with
  | nil => cases h
  | cons x xs ih =>
    rw [List.foldlM_cons] at h
    rcases bind_eq_error.1 h with hx | ⟨c, -, h⟩
    · exact ⟨b, x, List.mem_cons_self, hx⟩
    · obtain ⟨c, z, hz, he⟩ := ih h
      exact ⟨c, z, List.mem_cons_of_mem _ hz, he⟩

end Tests

end WeaveRuntime.Lib
