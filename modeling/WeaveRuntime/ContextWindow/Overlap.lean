/-
The search for an overlap of two selectors, as validation runs it: a walk
by two positions, with every answer remembered.

The walk is the one over the tokens from the two positions on
(`intersects_eq_overlaps`), so what the tokens are known to decide it
decides (`intersects_iff_spells`): whether some text is spelled by both
sequences, where a wildcard stands for any text over the characters of
the two. A class that holds nothing is the only thing that breaks it, as
the walk lets a wildcard run over one without looking.
-/
import WeaveRuntime.ContextWindow.Ambiguity

namespace WeaveRuntime.ContextWindow

open Lib.Glob

-- ============ the walk

def tokenChars : Token (List Char) → List Char
  | .star => []
  | .one chars => chars

/-- `intersects(left_index, right_index)` of
`_selector_patterns_overlap`. -/
def intersects (leftTokens rightTokens : List (Token (List Char)))
    (leftIndex rightIndex : Nat) : Bool :=
  if hleft : leftIndex < leftTokens.length then
    if hright : rightIndex < rightTokens.length then
      let left := leftTokens[leftIndex]
      let right := rightTokens[rightIndex]
      if left.isStar
          && intersects leftTokens rightTokens (leftIndex + 1) rightIndex
        then true
      else if right.isStar
          && intersects leftTokens rightTokens leftIndex (rightIndex + 1)
        then true
      else if left.isStar && !right.isStar then
        intersects leftTokens rightTokens leftIndex (rightIndex + 1)
      else if right.isStar && !left.isStar then
        intersects leftTokens rightTokens (leftIndex + 1) rightIndex
      else if tokensMeet (tokenChars left) (tokenChars right) then
        intersects leftTokens rightTokens (leftIndex + 1) (rightIndex + 1)
      else false
    else (leftTokens.drop leftIndex).all Token.isStar
  else (rightTokens.drop rightIndex).all Token.isStar
  termination_by
    (leftTokens.length - leftIndex) + (rightTokens.length - rightIndex)

section Walk

variable {leftTokens rightTokens : List (Token (List Char))}

/-- One turn of the walk over tokens, as the walk by positions spells
it. -/
theorem overlaps_cons_cons (left right : Token (List Char))
    (ls rs : List (Token (List Char))) :
    overlaps tokensMeet (left :: ls) (right :: rs)
      = if left.isStar && overlaps tokensMeet ls (right :: rs) then true
        else if right.isStar && overlaps tokensMeet (left :: ls) rs then true
        else if left.isStar && !right.isStar then
          overlaps tokensMeet (left :: ls) rs
        else if right.isStar && !left.isStar then
          overlaps tokensMeet ls (right :: rs)
        else if tokensMeet (tokenChars left) (tokenChars right) then
          overlaps tokensMeet ls rs
        else false := by
  show overlapsAt tokensMeet left ls (overlaps tokensMeet ls) (right :: rs)
    = _
  have hright : overlapsAt tokensMeet left ls (overlaps tokensMeet ls) rs
      = overlaps tokensMeet (left :: ls) rs := rfl
  simp only [overlapsAt, hright]
  cases left with
  | star =>
    cases right with
    | star => simp [Token.isStar, tokensMeet, tokenChars]
    | one b => simp [Token.isStar]
  | one a =>
    cases right with
    | star => simp [Token.isStar]
    | one b =>
      show (tokensMeet a b && overlaps tokensMeet ls rs) = _
      cases hmeet : tokensMeet a b <;> simp [Token.isStar, tokenChars, hmeet]

theorem intersects_eq_overlaps (i j : Nat) :
    intersects leftTokens rightTokens i j
      = overlaps tokensMeet (leftTokens.drop i) (rightTokens.drop j) := by
  rw [intersects]
  by_cases hi : i < leftTokens.length
  · by_cases hj : j < rightTokens.length
    · have hleft := List.drop_eq_getElem_cons hi
      have hright := List.drop_eq_getElem_cons hj
      rw [dif_pos hi, dif_pos hj, intersects_eq_overlaps (i + 1) j,
        intersects_eq_overlaps i (j + 1),
        intersects_eq_overlaps (i + 1) (j + 1), hleft, hright,
        overlaps_cons_cons]
    · have hnil : rightTokens.drop j = [] :=
        List.drop_eq_nil_of_le (Nat.le_of_not_lt hj)
      rw [dif_pos hi, dif_neg hj, hnil, overlaps_nil_right]
  · have hnil : leftTokens.drop i = [] :=
      List.drop_eq_nil_of_le (Nat.le_of_not_lt hi)
    rw [dif_neg hi, hnil]
    rfl
  termination_by
    (leftTokens.length - i) + (rightTokens.length - j)

end Walk

-- ======== the alphabet

/-- A character of a set. -/
def holds (chars : List Char) (c : Char) : Bool := decide (c ∈ chars)

/-- The union of the character sets of two sequences. -/
def unionAlphabet (leftTokens rightTokens : List (Token (List Char))) :
    List Char :=
  leftTokens.flatMap tokenChars ++ rightTokens.flatMap tokenChars

/-- A character of the union. -/
def InUnion (leftTokens rightTokens : List (Token (List Char))) (c : Char) :
    Prop :=
  c ∈ unionAlphabet leftTokens rightTokens

/-- A star, or a set that is not empty. -/
def HasCharacter (token : Token (List Char)) : Prop :=
  token = .star ∨ tokenChars token ≠ []

instance (token : Token (List Char)) : Decidable (HasCharacter token) :=
  inferInstanceAs (Decidable (_ ∨ _))

section Alphabet

variable {leftTokens rightTokens : List (Token (List Char))}

theorem inUnion_left {chars : List Char} {c : Char}
    (h : .one chars ∈ leftTokens) (hc : c ∈ chars) :
    InUnion leftTokens rightTokens c :=
  List.mem_append_left _ (List.mem_flatMap.2 ⟨.one chars, h, hc⟩)

theorem inUnion_right {chars : List Char} {c : Char}
    (h : .one chars ∈ rightTokens) (hc : c ∈ chars) :
    InUnion leftTokens rightTokens c :=
  List.mem_append_right _ (List.mem_flatMap.2 ⟨.one chars, h, hc⟩)

theorem exists_mem_of_hasCharacter {tokens : List (Token (List Char))}
    (h : ∀ t ∈ tokens, HasCharacter t) {chars : List Char}
    (hmem : .one chars ∈ tokens) : ∃ c, c ∈ chars := by
  rcases h _ hmem with hstar | hne
  · cases hstar
  · exact List.exists_mem_of_ne_nil chars hne

theorem tokensMeet_iff {left right : List Char} :
    tokensMeet left right = true ↔ ∃ c, c ∈ left ∧ c ∈ right := by
  unfold tokensMeet
  rw [List.any_eq_true]
  simp only [decide_eq_true_eq]

end Alphabet

-- =========== exactness

/-- The walk answers whether some text is spelled by both sequences, over
the characters of the two. -/
theorem intersects_iff_spells
    (leftTokens rightTokens : List (Token (List Char)))
    (hleft : ∀ t ∈ leftTokens, HasCharacter t)
    (hright : ∀ t ∈ rightTokens, HasCharacter t) :
    intersects leftTokens rightTokens 0 0 = true
      ↔ ∃ text : List Char,
          Spells holds (InUnion leftTokens rightTokens) leftTokens text
          ∧ Spells holds (InUnion leftTokens rightTokens) rightTokens
              text := by
  rw [intersects_eq_overlaps]
  refine ⟨fun h => ?_, fun h => ?_⟩
  · have hcommon : Common holds (InUnion leftTokens rightTokens) leftTokens
        rightTokens := by
      refine common_of_overlaps ?_ ?_ ?_ h
      · intro chars hchars
        obtain ⟨c, hc⟩ := exists_mem_of_hasCharacter hleft hchars
        exact ⟨c, inUnion_left hchars hc, decide_eq_true hc⟩
      · intro chars hchars
        obtain ⟨c, hc⟩ := exists_mem_of_hasCharacter hright hchars
        exact ⟨c, inUnion_right hchars hc, decide_eq_true hc⟩
      · intro left right hl _ hmeet
        obtain ⟨c, hcl, hcr⟩ := tokensMeet_iff.1 hmeet
        exact ⟨c, inUnion_left hl hcl, decide_eq_true hcl,
          decide_eq_true hcr⟩
    obtain ⟨text, hP, hml, hmr⟩ := hcommon
    exact ⟨text, spells_of_matches hP hml, spells_of_matches hP hmr⟩
  · obtain ⟨text, hl, hr⟩ := h
    refine overlaps_of_matches ?_ hl.matches hr.matches
    intro left right c hcl hcr
    exact tokensMeet_iff.2
      ⟨c, of_decide_eq_true hcl, of_decide_eq_true hcr⟩

/-- Two sequences that share a text only where one star runs over the
other's class. -/
theorem intersects_iff_spells_sample :
    intersects [.one ['a', 'b'], .star] [.star, .one ['c']] 0 0 = true
      ↔ ∃ text : List Char,
          Spells holds (InUnion [.one ['a', 'b'], .star] [.star, .one ['c']])
            [.one ['a', 'b'], .star] text
          ∧ Spells holds
              (InUnion [.one ['a', 'b'], .star] [.star, .one ['c']])
              [.star, .one ['c']] text :=
  intersects_iff_spells _ _ (by decide) (by decide)

-- ========== the order of validation

section Order

variable {p q : ModelContextWindowProfile}

theorem selectorPatternsOverlap_symm {left right : String}
    (h : selectorPatternsOverlap left right = true) :
    selectorPatternsOverlap right left = true := by
  refine overlaps_symm (fun a b hab => ?_) h
  obtain ⟨c, ha, hb⟩ := tokensMeet_iff.1 hab
  exact tokensMeet_iff.2 ⟨c, hb, ha⟩

theorem diagnostics_symm (h : diagnostics p q = []) :
    diagnostics q p = [] := by
  by_cases hscopes : providerScopesOverlap q.providerName p.providerName
  · have hscopes' : providerScopesOverlap p.providerName q.providerName
        = true := by
      unfold providerScopesOverlap at hscopes ⊢
      grind
    obtain ⟨label, href, -⟩ := compared h hscopes'
    unfold diagnostics
    rw [if_pos hscopes]
    refine List.append_eq_nil_iff.2 ⟨?_, ?_⟩
    · unfold refDiagnostics at href ⊢
      grind
    · unfold selectorDiagnostics
      by_cases hkind : q.selectorKind = p.selectorKind
      · obtain ⟨selector, earlier, hs, he, hne, hover⟩ :=
          selectors_compared h hscopes' hkind.symm
        have hpattern : selectorHasPattern earlier
            = selectorHasPattern selector := by
          unfold ModelContextWindowProfile.selectorKind at hkind
          grind
        have hover' : selectorHasPattern selector = true →
            ¬ selectorPatternsOverlap earlier selector = true := fun hp ho =>
          absurd (selectorPatternsOverlap_symm ho)
            (Bool.eq_false_iff.1 (hover hp))
        grind
      · exact if_pos hkind
  · exact if_neg hscopes

/-- Whether a list of profiles is valid does not depend on its order. -/
theorem validated_in_any_order {profiles reordered :
      List ModelContextWindowProfile} (hperm : profiles.Perm reordered) :
    validateModelContextWindowProfiles profiles = []
      ↔ validateModelContextWindowProfiles reordered = [] := by
  have hpairs : ∀ profiles, validateModelContextWindowProfiles profiles = []
      ↔ profiles.Pairwise fun q p => diagnostics p q = [] := fun profiles =>
    validateAfter_eq_nil.trans (and_iff_right (by simp))
  rw [hpairs, hpairs]
  exact hperm.pairwise_iff fun h => diagnostics_symm h

end Order

theorem validated_reversed :
    validateModelContextWindowProfiles fixedProfiles.reverse = [] :=
  (validated_in_any_order fixedProfiles.reverse_perm).2 (by decide)

end WeaveRuntime.ContextWindow
