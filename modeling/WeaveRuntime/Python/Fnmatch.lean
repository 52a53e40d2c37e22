/-
`fnmatch`: shell patterns over characters.

A pattern is read into tokens by one loop (`tokenize`) that is told how a
character class is delimited and what it holds (`Reading`), because the
runtime has a second reader of the same patterns. `fnmatchReading` is the
reading of `fnmatch` itself: only a leading `!` negates, a `]` right after
the opening is a member, an unclosed `[` is an ordinary character, and a
range whose ends are out of order holds nothing.
-/
import WeaveRuntime.Lib.Glob

namespace WeaveRuntime.Python

open Lib.Glob

-- ============ readings

/-- How a reader of patterns takes a `[`: `split` finds the body of a class
and what follows it, and the other fields say what a token stands for. -/
structure Reading (κ : Type) where
  anyChar : κ
  literal : Char → κ
  split : List Char → Option (List Char × List Char)
  charClass : List Char → κ

section Reading

variable {κ : Type} (R : Reading κ)

/-- The loop over a pattern. Each turn takes at least one character, so as
many turns as there are characters are enough. -/
def tokenizeLoop : Nat → List Char → List (Token κ)
  | _, [] => []
  | 0, _ :: _ => []
  | n + 1, c :: cs =>
    if c = '*' then .star :: tokenizeLoop n cs
    else if c = '?' then .one R.anyChar :: tokenizeLoop n cs
    else if c = '[' then
      match R.split cs with
      | some (body, rest) =>
        .one (R.charClass body) :: tokenizeLoop n rest
      | none => .one (R.literal c) :: tokenizeLoop n cs
    else .one (R.literal c) :: tokenizeLoop n cs

def tokenize (pattern : String) : List (Token κ) :=
  tokenizeLoop R pattern.toList.length pattern.toList

end Reading

-- ============= fnmatch

/-- A set of characters: ranges, or what lies outside of them. -/
structure CharClass where
  negated : Bool
  ranges : List (Char × Char)

/-- The character lies in one of the ranges. -/
def inRanges (ranges : List (Char × Char)) (c : Char) : Bool :=
  ranges.any fun r => decide (r.1 ≤ c) && decide (c ≤ r.2)

def CharClass.mem (k : CharClass) (c : Char) : Bool :=
  inRanges k.ranges c != k.negated

/-- The text up to the first `]`, and the text after it. -/
def splitAtClose : List Char → Option (List Char × List Char)
  | [] => none
  | c :: cs =>
    if c = ']' then some ([], cs)
    else (splitAtClose cs).map fun e => (c :: e.1, e.2)

/-- The body of a class; a `]` right after the opening, or after its `!`,
does not close it. -/
def fnmatchSplit : List Char → Option (List Char × List Char)
  | '!' :: ']' :: cs => (splitAtClose cs).map fun e => ('!' :: ']' :: e.1, e.2)
  | ']' :: cs => (splitAtClose cs).map fun e => (']' :: e.1, e.2)
  | cs => splitAtClose cs

/-- The ranges of a body; one whose ends are out of order is dropped. -/
def fnmatchRanges : List Char → List (Char × Char)
  | c :: '-' :: d :: cs =>
    if c ≤ d then (c, d) :: fnmatchRanges cs else fnmatchRanges cs
  | c :: cs => (c, c) :: fnmatchRanges cs
  | [] => []

def fnmatchClass : List Char → CharClass
  | '!' :: body => ⟨true, fnmatchRanges body⟩
  | body => ⟨false, fnmatchRanges body⟩

/-- How `fnmatch.translate` reads a pattern. -/
def fnmatchReading : Reading CharClass where
  anyChar := ⟨true, []⟩
  literal c := ⟨false, [(c, c)]⟩
  split := fnmatchSplit
  charClass := fnmatchClass

/-- `fnmatch(name, pattern)`, where file names are case sensitive. -/
def fnmatch (name pattern : String) : Bool :=
  matchTokens CharClass.mem (tokenize fnmatchReading pattern) name.toList

theorem mem_literal (a c : Char) :
    (fnmatchReading.literal a).mem c = true ↔ c = a := by
  show ((decide (a ≤ c) && decide (c ≤ a) || false) != false) = true ↔ _
  rw [Bool.bne_false, Bool.or_false, Bool.and_eq_true, decide_eq_true_eq,
    decide_eq_true_eq]
  refine ⟨fun h => ?_, fun h => ?_⟩
  · exact Char.le_antisymm h.2 h.1
  · rw [h]
    exact ⟨Char.le_refl a, Char.le_refl a⟩

-- ============ one star

/-- A character that stands for itself in a pattern. -/
def Plain (c : Char) : Prop := c ≠ '*' ∧ c ≠ '?' ∧ c ≠ '['

theorem tokenizeLoop_plain {cs : List Char} (h : ∀ c ∈ cs, Plain c)
    (n : Nat) (rest : List Char) :
    tokenizeLoop fnmatchReading (cs.length + n) (cs ++ rest)
      = cs.map (fun c => .one (fnmatchReading.literal c))
        ++ tokenizeLoop fnmatchReading n rest := by
  induction cs with
  | nil => rw [List.length_nil, Nat.zero_add]; rfl
  | cons c cs ih =>
    obtain ⟨hstar, hany, hclass⟩ := h c (List.mem_cons_self ..)
    have hrest := ih fun d hd => h d (List.mem_cons_of_mem _ hd)
    rw [List.length_cons, Nat.add_right_comm, List.cons_append]
    show (if c = '*' then _ else _) = _
    rw [if_neg hstar, if_neg hany, if_neg hclass, hrest]
    rfl

theorem matchTokens_literals {cs text : List Char}
    {ts : List (Token CharClass)} :
    matchTokens CharClass.mem
        (cs.map (fun c => .one (fnmatchReading.literal c)) ++ ts) text = true
      ↔ ∃ rest, text = cs ++ rest
        ∧ matchTokens CharClass.mem ts rest = true := by
  induction cs generalizing text with
  | nil => simp
  | cons c cs ih =>
    cases text with
    | nil =>
      refine ⟨fun h => ?_, fun h => ?_⟩
      · cases h
      · obtain ⟨rest, heq, -⟩ := h
        cases heq
    | cons x text =>
      rw [List.map_cons, List.cons_append, matchTokens_one_cons,
        mem_literal, ih]
      refine ⟨fun h => ?_, fun h => ?_⟩
      · obtain ⟨hx, rest, heq, hm⟩ := h
        exact ⟨rest, by rw [hx, heq]; rfl, hm⟩
      · obtain ⟨rest, heq, hm⟩ := h
        obtain ⟨hx, htext⟩ := List.cons_eq_cons.1 heq
        exact ⟨hx, rest, htext, hm⟩

theorem matchTokens_star_iff {ts : List (Token CharClass)}
    {text : List Char} :
    matchTokens CharClass.mem (.star :: ts) text = true
      ↔ ∃ mid rest, text = mid ++ rest
        ∧ matchTokens CharClass.mem ts rest = true := by
  refine ⟨fun h => ?_, fun h => ?_⟩
  · induction text with
    | nil => exact ⟨[], [], rfl, h⟩
    | cons x text ih =>
      rcases matchTokens_star_cons.1 h with hm | hm
      · exact ⟨[], x :: text, rfl, hm⟩
      · obtain ⟨mid, rest, heq, hrest⟩ := ih hm
        exact ⟨x :: mid, rest, by rw [heq]; rfl, hrest⟩
  · obtain ⟨mid, rest, heq, hm⟩ := h
    rw [heq]
    clear heq
    induction mid with
    | nil => exact matchTokens_star_of hm
    | cons x mid ih => exact matchTokens_star_cons.2 (Or.inr ih)

theorem fnmatch_star_iff {before after : String}
    (hbefore : ∀ c ∈ before.toList, Plain c)
    (hafter : ∀ c ∈ after.toList, Plain c) (name : String) :
    fnmatch name (before ++ "*" ++ after) = true
      ↔ ∃ mid, name.toList = before.toList ++ mid ++ after.toList := by
  have htokens : tokenize fnmatchReading (before ++ "*" ++ after)
      = before.toList.map (fun c => .one (fnmatchReading.literal c))
        ++ .star :: (after.toList.map
          (fun c => .one (fnmatchReading.literal c)) ++ []) := by
    have hlast := tokenizeLoop_plain hafter 0 []
    rw [List.append_nil, Nat.add_zero] at hlast
    unfold tokenize
    rw [String.toList_append, String.toList_append, List.append_assoc,
      List.length_append, tokenizeLoop_plain hbefore]
    show _ ++ tokenizeLoop fnmatchReading ('*' :: after.toList).length
      ('*' :: after.toList) = _
    rw [List.length_cons]
    show _ ++ .star :: tokenizeLoop fnmatchReading after.toList.length
      after.toList = _
    rw [hlast]
    rfl
  unfold fnmatch
  rw [htokens, matchTokens_literals]
  refine ⟨fun h => ?_, fun h => ?_⟩
  · obtain ⟨rest, hname, hm⟩ := h
    obtain ⟨mid, last, hrest, hm⟩ := matchTokens_star_iff.1 hm
    obtain ⟨nothing, hlast, hm⟩ := matchTokens_literals.1 hm
    have hnothing : nothing = [] := List.isEmpty_iff.1 hm
    refine ⟨mid, ?_⟩
    rw [hname, hrest, hlast, hnothing, List.append_nil, List.append_assoc]
  · obtain ⟨mid, hname⟩ := h
    refine ⟨mid ++ after.toList, by rw [hname, List.append_assoc], ?_⟩
    refine matchTokens_star_iff.2 ⟨mid, after.toList, rfl, ?_⟩
    exact matchTokens_literals.2 ⟨[], (List.append_nil _).symm, rfl⟩

example : [fnmatch "]x" "[]a]*", fnmatch "b" "[!a]", fnmatch "[a" "[a",
    fnmatch "," "[+--]", fnmatch "m" "[z-a]"]
    = [true, true, true, true, false] := by decide

end WeaveRuntime.Python
