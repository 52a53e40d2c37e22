/-
`str.replace` over any alphabet: the text is cut from the left into
items kept and occurrences of the old string, and the pieces are filled
again. The cut is made through a reading of the items, so that one cut
serves a text and what the text was read from.
-/
import Mathlib.Data.List.Infix

namespace WeaveRuntime.Python

/-- A piece of a text cut for a search. -/
inductive Piece (α : Type) where
  | kept (a : α)
  | occurrence
deriving DecidableEq

/-- What stands for a piece in the text written. -/
def Piece.fill {α β : Type} (show' : α → List β) (new : List β) :
    Piece α → List β
  | .kept a => show' a
  | .occurrence => new

variable {α β : Type} [DecidableEq β]

/-- The non-overlapping occurrences of a non-empty `old` from the left,
at most `count` of them; `skip` items still belong to the last one. -/
def pieces (reading : α → β) (old : List β) :
    Nat → Option Nat → List α → List (Piece α)
  | _, _, [] => []
  | skip + 1, count, _ :: rest => pieces reading old skip count rest
  | 0, count, a :: rest =>
    if count ≠ some 0 ∧ old <+: (a :: rest).map reading then
      .occurrence
        :: pieces reading old (old.length - 1) (count.map (· - 1)) rest
    else .kept a :: pieces reading old 0 count rest

/-- What the replacement of an empty string does: `new` goes before the
items and at the end. -/
def interleave (new : List β) : Option Nat → List β → List β
  | some 0, text => text
  | _, [] => new
  | count, b :: rest => new ++ b :: interleave new (count.map (· - 1)) rest

/-- `text.replace(old, new, count)`, no count for every occurrence. -/
def pyReplace (old new : List β) (count : Option Nat) (text : List β) :
    List β :=
  if old = [] then interleave new count text
  else (pieces id old 0 count text).flatMap (Piece.fill ([·]) new)

example : pyReplace "aa".toList "b".toList none "aaaca".toList
    = "baca".toList := by decide

variable {reading : α → β} {old : List β} {count : Option Nat}

theorem flatMap_pieces_map (new : List β) (skip : Nat) (xs : List α) :
    (pieces id old skip count (xs.map reading)).flatMap
        (Piece.fill ([·]) new)
      = (pieces reading old skip count xs).flatMap
          (Piece.fill (fun a => [reading a]) new) := by
  induction xs generalizing skip count with
  | nil => simp [pieces]
  | cons a rest ih =>
    cases skip with
    | succ skip => exact ih skip
    | zero =>
      simp only [List.map_cons, pieces, List.map_id_fun, id_eq]
      split
      · simp only [List.flatMap_cons, ih]
        rfl
      · simp only [List.flatMap_cons, ih]
        rfl

theorem occurrence_mem_pieces {xs : List α} (hold : old ≠ [])
    (hcount : count ≠ some 0) (h : old <:+: xs.map reading) :
    .occurrence ∈ pieces reading old 0 count xs := by
  induction xs with
  | nil => exact absurd (List.infix_nil.1 h) hold
  | cons a rest ih =>
    simp only [pieces]
    split
    · exact List.mem_cons_self
    next hnot =>
      rw [List.map_cons, List.infix_cons_iff] at h
      rcases h with h | h
      · exact absurd ⟨hcount, by simpa using h⟩ hnot
      · exact List.mem_cons_of_mem _ (ih h)

end WeaveRuntime.Python
