/-
Methods: code that reads and writes the state of an object and returns or
raises.

A method keeps the writes it made before it raised, as an interpreter
does; `Except` over a state would forget them. So a method is a function
from the state to an outcome AND a state, and a bind stops at the first
exception with the state as it is there.

# The three rules

`ensures_bind` is the rule for one method from one state: what the first
call ensures is what the rest starts from.

`evolves_bind` is the rule for what a method does to the state whatever it
returns: where every call in it moves the state along a preorder, so does
the whole method (`Evolves`). An invariant is the preorder `I s → I t`.

`coupled_bind` is the rule for two methods on two states, run side by
side: where corresponding calls return corresponding values and leave
corresponding states, so do the methods (`Coupled`).
-/
import WeaveRuntime.Lib.Raise

namespace WeaveRuntime.Lib

/-- A method on a state `σ`, with exceptions `ε` and results `α`. -/
structure Method (σ ε α : Type) where
  run : σ → Except ε α × σ

namespace Method

variable {σ ε α β : Type}

-- ====== the statements

/-- One call, and the rest of the method where it returns. -/
def andThen (m : Method σ ε α) (f : α → Method σ ε β) : Method σ ε β where
  run s :=
    match m.run s with
    | (.ok a, t) => (f a).run t
    | (.error e, t) => (.error e, t)

instance : Monad (Method σ ε) where
  pure a := ⟨fun s => (.ok a, s)⟩
  bind := andThen

def raise (e : ε) : Method σ ε α := ⟨fun s => (.error e, s)⟩

/-- A read of the state. -/
def read (f : σ → α) : Method σ ε α := ⟨fun s => (.ok (f s), s)⟩

/-- A write to the state. -/
def write (f : σ → σ) : Method σ ε Unit := ⟨fun s => (.ok (), f s)⟩

/-- A call that touches no state. -/
def lift (x : Except ε α) : Method σ ε α := ⟨fun s => (x, s)⟩

def tryExcept (body : Method σ ε α) (handler : ε → Method σ ε α) :
    Method σ ε α where
  run s :=
    match body.run s with
    | (.ok a, t) => (.ok a, t)
    | (.error e, t) => (handler e).run t

/-- A call of a method of a part of the object; what it raises is wrapped. -/
def within {τ δ : Type} (part : σ → τ) (put : σ → τ → σ) (wrap : δ → ε)
    (m : Method τ δ α) : Method σ ε α where
  run s := ((m.run (part s)).1.mapError wrap, put s (m.run (part s)).2)

-- =========== equations

@[simp] theorem run_pure (a : α) (s : σ) :
    (pure a : Method σ ε α).run s = (.ok a, s) := rfl

@[simp] theorem run_raise (e : ε) (s : σ) :
    (raise e : Method σ ε α).run s = (.error e, s) := rfl

@[simp] theorem run_read (f : σ → α) (s : σ) :
    (read f : Method σ ε α).run s = (.ok (f s), s) := rfl

@[simp] theorem run_write (f : σ → σ) (s : σ) :
    (write f : Method σ ε Unit).run s = (.ok (), f s) := rfl

@[simp] theorem run_lift (x : Except ε α) (s : σ) :
    (lift x : Method σ ε α).run s = (x, s) := rfl

variable {Q : Except ε β → σ → Prop} {f : α → Method σ ε β} {m : Method σ ε α}
  {s : σ}

theorem run_bind_of_ok {t : σ} {a : α} (h : m.run s = (.ok a, t)) :
    (m >>= f).run s = (f a).run t := by
  show (andThen m f).run s = _
  simp only [andThen, h]

theorem run_bind_of_error {t : σ} {e : ε} (h : m.run s = (.error e, t)) :
    (m >>= f).run s = (.error e, t) := by
  show (andThen m f).run s = _
  simp only [andThen, h]

@[simp] theorem run_read_bind (f : σ → α) (g : α → Method σ ε β) (s : σ) :
    (read f >>= g).run s = (g (f s)).run s := rfl

@[simp] theorem run_write_bind (f : σ → σ) (g : Unit → Method σ ε β)
    (s : σ) : (write f >>= g).run s = (g ()).run (f s) := rfl

@[simp] theorem run_pure_bind (a : α) (g : α → Method σ ε β) (s : σ) :
    (pure a >>= g).run s = (g a).run s := rfl

@[simp] theorem run_raise_bind (e : ε) (g : α → Method σ ε β) (s : σ) :
    ((raise e : Method σ ε α) >>= g).run s = (.error e, s) := rfl

@[simp] theorem run_lift_ok_bind (a : α) (g : α → Method σ ε β) (s : σ) :
    (lift (.ok a) >>= g).run s = (g a).run s := rfl

@[simp] theorem run_lift_error_bind (e : ε) (g : α → Method σ ε β) (s : σ) :
    ((lift (.error e) : Method σ ε α) >>= g).run s = (.error e, s) := rfl

theorem ext {n : Method σ ε α} (h : ∀ s, m.run s = n.run s) : m = n := by
  cases m
  cases n
  exact congrArg Method.mk (funext h)

theorem id_map (m : Method σ ε α) : id <$> m = m := by
  refine ext fun s => ?_
  show (andThen m fun a => pure (id a)).run s = m.run s
  unfold andThen
  dsimp only
  cases h : m.run s with
  | mk r t =>
    cases r with
    | ok a => rfl
    | error e => rfl

theorem bind_assoc {γ : Type} (m : Method σ ε α) (f : α → Method σ ε β)
    (g : β → Method σ ε γ) : m >>= f >>= g = m >>= fun a => f a >>= g := by
  refine ext fun s => ?_
  cases h : m.run s with
  | mk r t =>
    cases r with
    | error e =>
      rw [run_bind_of_error h]
      exact run_bind_of_error (run_bind_of_error h)
    | ok a =>
      have hstep := run_bind_of_ok (f := f) h
      rw [run_bind_of_ok h]
      cases hf : (f a).run t with
      | mk q u =>
        rw [hf] at hstep
        cases q with
        | ok b => rw [run_bind_of_ok hstep, run_bind_of_ok hf]
        | error e =>
          rw [run_bind_of_error hstep, run_bind_of_error hf]

/-- Methods compose as programs do: the order of the calls counts, their
grouping does not. -/
instance : LawfulMonad (Method σ ε) :=
  LawfulMonad.mk' (Method σ ε) id_map
    (fun a f => ext fun s => run_pure_bind a f s) bind_assoc

theorem run_tryExcept_of_ok {body : Method σ ε α} {handler : ε → Method σ ε α}
    {t : σ} {a : α} (h : body.run s = (.ok a, t)) :
    (tryExcept body handler).run s = (.ok a, t) := by
  simp only [tryExcept, h]

theorem run_tryExcept_of_error {body : Method σ ε α}
    {handler : ε → Method σ ε α} {t : σ} {e : ε}
    (h : body.run s = (.error e, t)) :
    (tryExcept body handler).run s = (handler e).run t := by
  simp only [tryExcept, h]

theorem run_within_of_ok {τ δ : Type} {part : σ → τ} {put : σ → τ → σ}
    {wrap : δ → ε} {m : Method τ δ α} {t : τ} {a : α}
    (h : m.run (part s) = (.ok a, t)) :
    (within part put wrap m).run s = (.ok a, put s t) := by
  show ((m.run (part s)).1.mapError wrap, put s (m.run (part s)).2) = _
  rw [h]
  rfl

/-- What was written before the exception stays written. -/
example : ((tryExcept (write (· + 1) >>= fun _ => raise "late")
      fun _ => read id : Method Nat String Nat).run 1).2 = 2 := by
  decide

theorem state_bind_pure (m : Method σ ε α) (g : α → β) (s : σ) :
    ((m >>= fun a => pure (g a)).run s).2 = (m.run s).2 := by
  cases h : m.run s with
  | mk r t =>
    cases r with
    | ok a => rw [run_bind_of_ok h, run_pure]
    | error e => rw [run_bind_of_error h]

theorem ne_error_bind_pure {e : ε} (g : α → β) (h : (m.run s).1 ≠ .error e) :
    ((m >>= fun a => pure (g a)).run s).1 ≠ .error e := by
  cases hrun : m.run s with
  | mk r t =>
    rw [hrun] at h
    cases r with
    | ok a =>
      rw [run_bind_of_ok hrun]
      exact fun heq => nomatch heq
    | error e' =>
      rw [run_bind_of_error hrun]
      exact fun heq => h (congrArg Except.error (Except.error.inj heq))

-- ============= ensures

/-- From `s`, the method ends with this outcome and in this state. -/
def Ensures (m : Method σ ε α) (s : σ) (Q : Except ε α → σ → Prop) : Prop :=
  Q (m.run s).1 (m.run s).2

theorem ensures_bind {P : Except ε α → σ → Prop} (hm : m.Ensures s P)
    (hok : ∀ a t, P (.ok a) t → (f a).Ensures t Q)
    (herror : ∀ e t, P (.error e) t → Q (.error e) t) :
    Ensures (m >>= f) s Q := by
  unfold Ensures at hm ⊢
  cases h : m.run s with
  | mk r t =>
    rw [h] at hm
    cases r with
    | ok a =>
      rw [run_bind_of_ok h]
      exact hok a t hm
    | error e =>
      rw [run_bind_of_error h]
      exact herror e t hm

theorem ensures_read_bind {f : σ → α} {g : α → Method σ ε β}
    (h : (g (f s)).Ensures s Q) : Ensures (read f >>= g) s Q := h

theorem ensures_write_bind {f : σ → σ} {g : Unit → Method σ ε β}
    (h : (g ()).Ensures (f s) Q) : Ensures (write f >>= g) s Q := h

theorem Ensures.mono {P Q : Except ε α → σ → Prop} (h : m.Ensures s P)
    (hPQ : ∀ r t, P r t → Q r t) : m.Ensures s Q :=
  hPQ _ _ h

-- ============== yields

/-- Where the method returns a value, the value and the state are so. -/
def Yields (m : Method σ ε α) (s : σ) (Q : α → σ → Prop) : Prop :=
  ∀ a t, m.run s = (.ok a, t) → Q a t

theorem yields_pure {a : α} {Q : α → σ → Prop} (h : Q a s) :
    (pure a : Method σ ε α).Yields s Q := by
  intro b t hrun
  cases hrun
  exact h

theorem yields_bind {P : α → σ → Prop} {Q : β → σ → Prop} (hm : m.Yields s P)
    (hf : ∀ a t, P a t → (f a).Yields t Q) : (m >>= f).Yields s Q := by
  intro b u hrun
  cases h : m.run s with
  | mk r t =>
    cases r with
    | ok a =>
      rw [run_bind_of_ok h] at hrun
      exact hf a t (hm a t h) b u hrun
    | error e =>
      rw [run_bind_of_error h] at hrun
      cases hrun

theorem yields_read_bind {f : σ → α} {g : α → Method σ ε β} {Q : β → σ → Prop}
    (h : (g (f s)).Yields s Q) : (read f >>= g).Yields s Q := h

theorem yields_write_bind {f : σ → σ} {g : Unit → Method σ ε β}
    {Q : β → σ → Prop} (h : (g ()).Yields (f s) Q) :
    (write f >>= g).Yields s Q := h

theorem yields_within {τ δ : Type} {part : σ → τ} {put : σ → τ → σ}
    {wrap : δ → ε} {m : Method τ δ α} {P : α → τ → Prop}
    (h : m.Yields (part s) P) :
    (within part put wrap m).Yields s
      fun a t => ∃ u, P a u ∧ t = put s u := by
  intro a t hrun
  simp only [within] at hrun
  cases hm : m.run (part s) with
  | mk r u =>
    rw [hm] at hrun
    cases r with
    | ok b =>
      cases hrun
      exact ⟨u, h a u hm, rfl⟩
    | error e => cases hrun

theorem Yields.mono {P Q : α → σ → Prop} (h : m.Yields s P)
    (hPQ : ∀ a t, P a t → Q a t) : m.Yields s Q :=
  fun a t hrun => hPQ a t (h a t hrun)

-- ============= evolves

/-- Whatever the method returns or raises, it moves the state along `R`. -/
def Evolves (R : σ → σ → Prop) (m : Method σ ε α) : Prop :=
  ∀ s, R s (m.run s).2

section Evolves

variable {R : σ → σ → Prop}

theorem evolves_pure (hrefl : ∀ s, R s s) (a : α) :
    Evolves R (pure a : Method σ ε α) := hrefl

theorem evolves_raise (hrefl : ∀ s, R s s) (e : ε) :
    Evolves R (raise e : Method σ ε α) := hrefl

theorem evolves_lift (hrefl : ∀ s, R s s) (x : Except ε α) :
    Evolves R (lift x : Method σ ε α) := hrefl

theorem evolves_read (hrefl : ∀ s, R s s) (f : σ → α) :
    Evolves R (read f : Method σ ε α) := hrefl

theorem evolves_write {f : σ → σ} (h : ∀ s, R s (f s)) :
    Evolves R (write f : Method σ ε Unit) := h

theorem evolves_within {τ δ : Type} {part : σ → τ} {put : σ → τ → σ}
    {wrap : δ → ε} (h : ∀ s t, R s (put s t)) (m : Method τ δ α) :
    Evolves R (within part put wrap m) := fun s => h s _

theorem evolves_tryExcept (htrans : ∀ s t u, R s t → R t u → R s u)
    {body : Method σ ε α} {handler : ε → Method σ ε α}
    (hbody : Evolves R body) (hhandler : ∀ e, Evolves R (handler e)) :
    Evolves R (tryExcept body handler) := by
  intro s
  have hs := hbody s
  unfold tryExcept
  dsimp only
  cases h : body.run s with
  | mk r t =>
    rw [h] at hs
    cases r with
    | ok a => exact hs
    | error e => exact htrans s t _ hs (hhandler e t)

/-- Where every call moves the state along a preorder, so does the
method. -/
theorem evolves_bind (htrans : ∀ s t u, R s t → R t u → R s u)
    {m : Method σ ε α} {f : α → Method σ ε β} (hm : Evolves R m)
    (hf : ∀ a, Evolves R (f a)) : Evolves R (m >>= f) := by
  intro s
  have hs := hm s
  cases h : m.run s with
  | mk r t =>
    rw [h] at hs
    cases r with
    | ok a =>
      rw [run_bind_of_ok h]
      exact htrans s t _ hs (hf a t)
    | error e =>
      rw [run_bind_of_error h]
      exact hs

/-- A preorder that the method moves along holds of what it returns in. -/
theorem Evolves.yields {m : Method σ ε α} (h : m.Evolves R) (s : σ) :
    m.Yields s fun _ t => R s t := by
  intro a t hrun
  have hs := h s
  rw [hrun] at hs
  exact hs

end Evolves

/-- An exception in a part leaves the rest of the object alone. -/
example : (((within Prod.fst (fun s t => (t, s.2)) String.length
      (write (· + 1) >>= fun _ => raise "part")) :
      Method (Nat × Nat) Nat Unit).run (1, 5)).2 = (2, 5) := by
  decide

-- ============= coupled

/-- Two outcomes: the same exception, or values that correspond. -/
def Corresponds (V : α → β → Prop) : Except ε α → Except ε β → Prop
  | .ok a, .ok b => V a b
  | .error e, .error e' => e = e'
  | _, _ => False

theorem corresponds_eq {x y : Except ε α} : Corresponds Eq x y ↔ x = y := by
  cases x <;> cases y <;> simp [Corresponds]

/-- From corresponding states, the two methods end with corresponding
outcomes and in corresponding states. -/
def Coupled {τ : Type} (R : σ → τ → Prop) (V : α → β → Prop)
    (m : Method σ ε α) (n : Method τ ε β) : Prop :=
  ∀ s t, R s t →
    Corresponds V (m.run s).1 (n.run t).1 ∧ R (m.run s).2 (n.run t).2

section Coupled

variable {τ γ δ : Type} {R : σ → τ → Prop} {V : α → β → Prop}
  {W : γ → δ → Prop}

theorem coupled_pure {a : α} {b : β} (h : V a b) :
    Coupled R V (pure a : Method σ ε α) (pure b) := fun _ _ hR => ⟨h, hR⟩

theorem coupled_read {f : σ → α} {g : τ → β}
    (h : ∀ s t, R s t → V (f s) (g t)) :
    Coupled R V (read f : Method σ ε α) (read g) :=
  fun s t hR => ⟨h s t hR, hR⟩

theorem coupled_write {f : σ → σ} {g : τ → τ}
    (h : ∀ s t, R s t → R (f s) (g t)) :
    Coupled R (fun _ _ => True) (write f : Method σ ε Unit) (write g) :=
  fun s t hR => ⟨trivial, h s t hR⟩

theorem coupled_bind {m : Method σ ε α} {n : Method τ ε β}
    {f : α → Method σ ε γ} {g : β → Method τ ε δ} (hm : Coupled R V m n)
    (hf : ∀ a b, V a b → Coupled R W (f a) (g b)) :
    Coupled R W (m >>= f) (n >>= g) := by
  intro s t hR
  obtain ⟨hout, hR'⟩ := hm s t hR
  cases hms : m.run s with
  | mk r s' =>
    cases hnt : n.run t with
    | mk q t' =>
      rw [hms, hnt] at hout hR'
      cases r with
      | ok a =>
        cases q with
        | ok b =>
          rw [run_bind_of_ok hms, run_bind_of_ok hnt]
          exact hf a b hout s' t' hR'
        | error e => exact hout.elim
      | error e =>
        cases q with
        | ok b => exact hout.elim
        | error e' =>
          rw [run_bind_of_error hms, run_bind_of_error hnt]
          exact ⟨hout, hR'⟩

end Coupled

end Method

end WeaveRuntime.Lib
