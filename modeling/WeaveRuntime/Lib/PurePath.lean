/-
Pure paths, as POSIX writes them: components under a root or under no
root, and the text they are written as.

A component is not empty, not the dot, and has no separator in it, so
writing is injective (`text_injective`) and the text says whether there
is a root (`text_absolute`, `text_relative`). `relativeTo` takes the
components of a base off, and what is left tells the paths under one base
apart (`relativeTo_injective`).
-/
import Mathlib.Data.List.Basic
import Mathlib.Tactic.ByContra

namespace WeaveRuntime.Lib

-- ========== components

/-- A name between two separators. -/
abbrev Component :=
  { name : String // name ≠ "" ∧ name ≠ "." ∧ '/' ∉ name.toList }

namespace Component

/-- The names with separators between them. -/
def join (names : List Component) : List Char :=
  ['/'].intercalate (names.map fun name => name.1.toList)

variable {names : List Component}

theorem sep_not_mem {cs : List Char}
    (h : cs ∈ names.map fun name => name.1.toList) : '/' ∉ cs := by
  obtain ⟨name, -, rfl⟩ := List.mem_map.1 h
  exact name.2.2.2

theorem toList_injective :
    Function.Injective fun name : Component => name.1.toList :=
  fun _ _ h => Subtype.ext (String.toList_injective h)

theorem splitOn_join (h : names ≠ []) :
    (join names).splitOn '/' = names.map fun name => name.1.toList := by
  refine List.splitOn_intercalate '/' (fun cs hcs => sep_not_mem hcs) ?_
  exact fun hnil => h (List.map_eq_nil_iff.1 hnil)

theorem join_eq_nil (h : join names = []) : names = [] := by
  by_contra hne
  have hsplit := splitOn_join hne
  rw [h, List.splitOn_nil] at hsplit
  obtain _ | ⟨name, names⟩ := names
  · exact hne rfl
  · rw [List.map_cons, List.cons.injEq] at hsplit
    refine name.2.1 (String.toList_injective ?_)
    exact hsplit.1.symm

theorem join_injective {others : List Component}
    (h : join names = join others) : names = others := by
  by_cases hnil : names = []
  · rw [hnil] at h ⊢
    exact (join_eq_nil h.symm).symm
  · have hother : others ≠ [] := fun hnil' =>
      hnil (join_eq_nil (h.trans (hnil' ▸ rfl)))
    refine List.map_injective_iff.2 toList_injective ?_
    rw [← splitOn_join hnil, ← splitOn_join hother, h]

theorem join_head {cs : List Char} : join names ≠ '/' :: cs := by
  intro h
  have hne : names ≠ [] := by
    rintro rfl
    cases h
  have hsplit := splitOn_join hne
  rw [h] at hsplit
  obtain _ | ⟨name, names⟩ := names
  · exact hne rfl
  · rw [List.splitOn_cons_eq_if_modifyHead, if_pos (beq_self_eq_true _),
      List.map_cons, List.cons.injEq] at hsplit
    exact name.2.1 (String.toList_injective hsplit.1.symm)

end Component

-- =============== paths

/-- A path: its names, from the root or from where one is. -/
structure PurePath where
  absolute : Bool
  parts : List Component
  deriving DecidableEq

namespace PurePath

def text (path : PurePath) : String :=
  match path.absolute, path.parts with
  | true, parts => String.ofList ('/' :: Component.join parts)
  | false, [] => "."
  | false, parts => String.ofList (Component.join parts)

theorem text_absolute (parts : List Component) :
    (PurePath.mk true parts).text
      = String.ofList ('/' :: Component.join parts) := rfl

theorem text_relative {parts : List Component} {cs : List Char} :
    (PurePath.mk false parts).text ≠ String.ofList ('/' :: cs) := by
  cases parts with
  | nil =>
    intro h
    have hchars : ['.'] = '/' :: cs := String.ofList_injective h
    cases hchars
  | cons name names =>
    exact fun h => Component.join_head (String.ofList_injective h)

theorem join_ne_dot {names : List Component} :
    Component.join names ≠ ['.'] := by
  intro h
  have hne : names ≠ [] := by
    rintro rfl
    cases h
  have hsplit := Component.splitOn_join hne
  have hdot : ['.'].splitOn '/' = [['.']] := rfl
  rw [h, hdot] at hsplit
  obtain _ | ⟨name, names⟩ := names
  · exact hne rfl
  · rw [List.map_cons, List.cons.injEq] at hsplit
    exact name.2.2.1 (String.toList_injective hsplit.1.symm)

theorem text_injective : Function.Injective text := by
  rintro ⟨absolute, names⟩ ⟨absolute', names'⟩ h
  cases absolute with
  | true =>
    cases absolute' with
    | true =>
      have hjoin := String.ofList_injective h
      rw [List.cons.injEq] at hjoin
      exact congrArg (PurePath.mk true)
        (Component.join_injective hjoin.2)
    | false => exact absurd h.symm text_relative
  | false =>
    cases absolute' with
    | true => exact absurd h text_relative
    | false =>
      cases names with
      | nil =>
        cases names' with
        | nil => rfl
        | cons name names' =>
          exact absurd (String.ofList_injective h).symm join_ne_dot
      | cons name names =>
        cases names' with
        | nil => exact absurd (String.ofList_injective h) join_ne_dot
        | cons name' names' =>
          exact congrArg (PurePath.mk false)
            (Component.join_injective (String.ofList_injective h))

/-- The path of a name in a directory. -/
def child (path : PurePath) (name : Component) : PurePath :=
  { path with parts := path.parts ++ [name] }

/-- The path from a base, where the base is one of the directories it is
in, or itself. -/
def relativeTo (path base : PurePath) : Option PurePath :=
  if path.absolute = base.absolute then
    (path.parts.dropPrefix? base.parts).map (⟨false, ·⟩)
  else none

theorem relativeTo_eq_some {path base rest : PurePath} :
    path.relativeTo base = some rest
      ↔ path.absolute = base.absolute ∧ rest.absolute = false
        ∧ path.parts = base.parts ++ rest.parts := by
  unfold relativeTo
  split
  · next hroot =>
    rw [Option.map_eq_some_iff]
    constructor
    · rintro ⟨parts, hdrop, rfl⟩
      obtain ⟨front, hparts, hfront⟩ := List.dropPrefix?_eq_some_iff.1 hdrop
      rw [eq_of_beq hfront] at hparts
      exact ⟨hroot, rfl, hparts⟩
    · rintro ⟨-, hrel, hparts⟩
      refine ⟨rest.parts, ?_, ?_⟩
      · exact List.dropPrefix?_eq_some_iff.2
          ⟨base.parts, hparts, beq_self_eq_true _⟩
      · rw [← hrel]
  · next hroot =>
    constructor
    · intro h
      cases h
    · rintro ⟨hsame, -⟩
      exact absurd hsame hroot

theorem relativeTo_of_child {path base rest : PurePath} {name : Component}
    (h : path.relativeTo (base.child name) = some rest) :
    path.relativeTo base = some ⟨false, name :: rest.parts⟩ := by
  obtain ⟨hroot, -, hparts⟩ := relativeTo_eq_some.1 h
  refine relativeTo_eq_some.2 ⟨hroot, rfl, hparts.trans ?_⟩
  exact List.append_assoc base.parts [name] rest.parts

theorem relativeTo_injective {path other base rest : PurePath}
    (h : path.relativeTo base = some rest)
    (h' : other.relativeTo base = some rest) : path = other := by
  obtain ⟨hroot, -, hparts⟩ := relativeTo_eq_some.1 h
  obtain ⟨hroot', -, hparts'⟩ := relativeTo_eq_some.1 h'
  obtain ⟨absolute, parts⟩ := path
  obtain ⟨absolute', parts'⟩ := other
  rw [PurePath.mk.injEq]
  exact ⟨hroot.trans hroot'.symm, hparts.trans hparts'.symm⟩

end PurePath

end WeaveRuntime.Lib
