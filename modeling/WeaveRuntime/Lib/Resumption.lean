/-
Resumptions: a computation that asks its surroundings questions on the
way, as a tree of questions and of what it does with each answer.

`run` lets a method answer. What the computation makes of an answer is
all it knows of who answered (`coupled_run`): two sides whose answers to
the same question correspond as far as the computation can tell make of
it the same.
-/
import WeaveRuntime.Lib.Method

namespace WeaveRuntime.Lib

/-- A computation with questions `P`, answers `R` and result `A`. -/
inductive Resumption (P R A : Type) where
  | done (result : A)
  | ask (question : P) (next : R → Resumption P R A)

namespace Resumption

variable {σ τ ε P R A : Type}

/-- Run the computation, with `answer` for its questions; what the answer
raises is an answer too. -/
def run (answer : P → Method σ ε R) :
    Resumption P (Except ε R) A → Method σ ε A
  | done result => pure result
  | ask question next =>
    ⟨fun s =>
      ((next ((answer question).run s).1).run answer).run
        ((answer question).run s).2⟩

/-- The run rule: what every answer keeps, the computation keeps. -/
theorem evolves_run {Q : σ → σ → Prop} (hrefl : ∀ s, Q s s)
    (htrans : ∀ s t u, Q s t → Q t u → Q s u) {answer : P → Method σ ε R}
    (h : ∀ p, (answer p).Evolves Q) (m : Resumption P (Except ε R) A) :
    (m.run answer).Evolves Q := by
  induction m with
  | done result => exact Method.evolves_pure hrefl result
  | ask question next ih =>
    intro s
    exact htrans s _ _ (h question s) (ih _ _)

/-- Two sides that answer alike: the same result, side by side. -/
theorem coupled_run {Q : σ → τ → Prop} {answer : P → Method σ ε R}
    {answer' : P → Method τ ε R}
    (h : ∀ p, (answer p).Coupled Q Eq (answer' p))
    (m : Resumption P (Except ε R) A) :
    (m.run answer).Coupled Q Eq (m.run answer') := by
  induction m with
  | done result => exact Method.coupled_pure rfl
  | ask question next ih =>
    intro s t hQ
    obtain ⟨hout, hQ'⟩ := h question s t hQ
    have heq := Method.corresponds_eq.1 hout
    have := ih ((answer question).run s).1 _ _ hQ'
    simp only [run]
    rw [← heq]
    exact this

end Resumption

end WeaveRuntime.Lib
