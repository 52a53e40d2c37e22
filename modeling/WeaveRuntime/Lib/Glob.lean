/-
Glob patterns: sequences of wildcards and character classes.

A pattern is a list of tokens, `star` for any text and `one k` for one
character of the class `k`; what a class holds is a parameter. `matchTokens`
says which texts a pattern matches. `overlaps` decides, on the tokens
alone, whether two patterns can match one text: it walks both patterns and
asks of two classes only whether they meet.

# Completeness

`overlaps_of_matches`: where two classes that share a character meet, two
patterns that match one text overlap. The converse,
`common_of_overlaps`, needs every class to hold something, since
`overlaps` lets a `star` run over a class without looking into it.
-/
import Mathlib.Data.List.Basic

namespace WeaveRuntime.Lib.Glob

-- ============== tokens

inductive Token (κ : Type u) where
  | star
  | one (k : κ)
  deriving DecidableEq, Repr

def Token.isStar {κ : Type u} : Token κ → Bool
  | .star => true
  | .one _ => false

section Matching

variable {κ : Type u} {α : Type v} (mem : κ → α → Bool)

/-- What is left of a text after any beginning of it. -/
def matchAfter (rest : List α → Bool) : List α → Bool
  | [] => rest []
  | x :: text => rest (x :: text) || matchAfter rest text

def matchTokens : List (Token κ) → List α → Bool
  | [], text => text.isEmpty
  | .star :: ts, text => matchAfter (matchTokens ts) text
  | .one _ :: _, [] => false
  | .one k :: ts, x :: text => mem k x && matchTokens ts text

variable {mem}

theorem matchTokens_nil (ts : List (Token κ)) :
    matchTokens mem ts [] = ts.all Token.isStar := by
  induction ts with
  | nil => rfl
  | cons t ts ih =>
    cases t with
    | star =>
      show matchTokens mem ts [] = _
      rw [ih]
      rfl
    | one k => rfl

variable {text : List α} {ts : List (Token κ)}

theorem matchTokens_star_cons {x : α} :
    matchTokens mem (.star :: ts) (x :: text) = true
      ↔ matchTokens mem ts (x :: text) = true
        ∨ matchTokens mem (.star :: ts) text = true := by
  show (matchTokens mem ts (x :: text)
    || matchAfter (matchTokens mem ts) text) = true ↔ _
  rw [Bool.or_eq_true]
  rfl

theorem matchTokens_star_of (h : matchTokens mem ts text = true) :
    matchTokens mem (.star :: ts) text = true := by
  cases text with
  | nil => exact h
  | cons x text => exact matchTokens_star_cons.2 (Or.inl h)

theorem matchTokens_one_cons {k : κ} {x : α} :
    matchTokens mem (.one k :: ts) (x :: text) = true
      ↔ mem k x = true ∧ matchTokens mem ts text = true := by
  show (mem k x && matchTokens mem ts text) = true ↔ _
  rw [Bool.and_eq_true]

theorem matchTokens_star_iff :
    matchTokens mem (.star :: ts) text = true
      ↔ ∃ before rest, text = before ++ rest
        ∧ matchTokens mem ts rest = true := by
  refine ⟨fun h => ?_, fun h => ?_⟩
  · induction text with
    | nil => exact ⟨[], [], rfl, h⟩
    | cons x text ih =>
      rcases matchTokens_star_cons.1 h with hm | hm
      · exact ⟨[], x :: text, rfl, hm⟩
      · obtain ⟨before, rest, heq, hrest⟩ := ih hm
        refine ⟨x :: before, rest, ?_, hrest⟩
        rw [heq, List.cons_append]
  · obtain ⟨before, rest, rfl, hm⟩ := h
    induction before with
    | nil => exact matchTokens_star_of hm
    | cons x before ih => exact matchTokens_star_cons.2 (Or.inr ih)

/-- The texts a pattern spells over an alphabet: a wildcard stands for any
text of the alphabet, a class for one of its characters. -/
inductive Spells (mem : κ → α → Bool) (P : α → Prop) :
    List (Token κ) → List α → Prop
  | nil : Spells mem P [] []
  | star {before rest : List α} {ts : List (Token κ)}
      (hbefore : ∀ x ∈ before, P x) (hrest : Spells mem P ts rest) :
      Spells mem P (.star :: ts) (before ++ rest)
  | one {k : κ} {ts : List (Token κ)} {x : α} {rest : List α}
      (hx : mem k x = true) (hrest : Spells mem P ts rest) :
      Spells mem P (.one k :: ts) (x :: rest)

theorem Spells.matches {P : α → Prop} (h : Spells mem P ts text) :
    matchTokens mem ts text = true := by
  induction h with
  | nil => rfl
  | star _ _ ih => exact matchTokens_star_iff.2 ⟨_, _, rfl, ih⟩
  | one hx _ ih => exact matchTokens_one_cons.2 ⟨hx, ih⟩

theorem spells_of_matches {P : α → Prop} (hP : ∀ x ∈ text, P x)
    (h : matchTokens mem ts text = true) : Spells mem P ts text := by
  induction ts generalizing text with
  | nil =>
    cases text with
    | nil => exact .nil
    | cons x text => cases h
  | cons t ts ih =>
    cases t with
    | star =>
      obtain ⟨before, rest, rfl, hm⟩ := matchTokens_star_iff.1 h
      refine .star ?_ (ih ?_ hm)
      · exact fun x hx => hP x (List.mem_append_left _ hx)
      · exact fun x hx => hP x (List.mem_append_right _ hx)
    | one k =>
      cases text with
      | nil => cases h
      | cons x text =>
        obtain ⟨hx, hm⟩ := matchTokens_one_cons.1 h
        refine .one hx (ih ?_ hm)
        exact fun y hy => hP y (List.mem_cons_of_mem _ hy)

/-- A token and a token that matches more, of the characters `P` asks
for. -/
inductive Token.Widens {κ' : Type u} (mem : κ → α → Bool)
    (mem' : κ' → α → Bool) (P : α → Prop) : Token κ → Token κ' → Prop
  | star : Widens mem mem' P .star .star
  | one {k : κ} {k' : κ'}
      (h : ∀ x, P x → mem k x = true → mem' k' x = true) :
      Widens mem mem' P (.one k) (.one k')

theorem matchTokens_widen {κ' : Type u} {mem' : κ' → α → Bool} {P : α → Prop}
    {us : List (Token κ')} (h : List.Forall₂ (Token.Widens mem mem' P) ts us)
    (hP : ∀ x ∈ text, P x) (hmatch : matchTokens mem ts text = true) :
    matchTokens mem' us text = true := by
  induction h generalizing text with
  | nil => exact hmatch
  | cons htu _ ih =>
    cases htu with
    | star =>
      induction text with
      | nil => exact ih hP hmatch
      | cons x text ihtext =>
        rcases matchTokens_star_cons.1 hmatch with hm | hm
        · exact matchTokens_star_cons.2 (Or.inl (ih hP hm))
        · have hP' : ∀ y ∈ text, P y :=
            fun y hy => hP y (List.mem_cons_of_mem _ hy)
          exact matchTokens_star_cons.2 (Or.inr (ihtext hP' hm))
    | one hsub =>
      cases text with
      | nil => cases hmatch
      | cons x text =>
        obtain ⟨hx, hm⟩ := matchTokens_one_cons.1 hmatch
        have hP' : ∀ y ∈ text, P y :=
          fun y hy => hP y (List.mem_cons_of_mem _ hy)
        exact matchTokens_one_cons.2
          ⟨hsub x (hP x (List.mem_cons_self ..)) hx, ih hP' hm⟩

end Matching

-- ============= overlap

section Overlap

variable {κ : Type u} (meets : κ → κ → Bool)

/-- `overlaps` at a left token: `next` is the answer for the tokens after
it. -/
def overlapsAt (l : Token κ) (ls : List (Token κ))
    (next : List (Token κ) → Bool) : List (Token κ) → Bool
  | [] => (l :: ls).all Token.isStar
  | r :: rs =>
    (l.isStar && next (r :: rs))
      || (r.isStar && overlapsAt l ls next rs)
      || (match l, r with
        | .star, .one _ => overlapsAt l ls next rs
        | .one _, .star => next (r :: rs)
        | .one a, .one b => meets a b && next rs
        | .star, .star => false)

/-- Whether two patterns can match one text. -/
def overlaps : List (Token κ) → List (Token κ) → Bool
  | [], rs => rs.all Token.isStar
  | l :: ls, rs => overlapsAt meets l ls (overlaps ls) rs

variable {meets}

theorem overlaps_nil_right (ls : List (Token κ)) :
    overlaps meets ls [] = ls.all Token.isStar := by
  cases ls <;> rfl

variable {ls rs : List (Token κ)}

theorem overlaps_skip_left (h : overlaps meets ls rs = true) :
    overlaps meets (.star :: ls) rs = true := by
  cases rs with
  | nil =>
    rw [overlaps_nil_right] at h ⊢
    exact h
  | cons r rs =>
    show (((true && overlaps meets ls (r :: rs)) || _) || _) = true
    rw [h]
    rfl

theorem overlaps_skip_right (h : overlaps meets ls rs = true) :
    overlaps meets ls (.star :: rs) = true := by
  cases ls with
  | nil => exact h
  | cons l ls =>
    have h' : overlapsAt meets l ls (overlaps meets ls) rs = true := h
    show ((_ || (true && overlapsAt meets l ls (overlaps meets ls) rs))
      || _) = true
    rw [h', Bool.true_and, Bool.or_true, Bool.true_or]

theorem overlaps_star_one {b : κ}
    (h : overlaps meets (.star :: ls) rs = true) :
    overlaps meets (.star :: ls) (.one b :: rs) = true := by
  have h' : overlapsAt meets .star ls (overlaps meets ls) rs = true := h
  show (_ || overlapsAt meets .star ls (overlaps meets ls) rs) = true
  rw [h', Bool.or_true]

theorem overlaps_one_star {a : κ}
    (h : overlaps meets ls (.star :: rs) = true) :
    overlaps meets (.one a :: ls) (.star :: rs) = true := by
  show (_ || overlaps meets ls (.star :: rs)) = true
  rw [h, Bool.or_true]

theorem overlaps_one_one {a b : κ} (hab : meets a b = true)
    (h : overlaps meets ls rs = true) :
    overlaps meets (.one a :: ls) (.one b :: rs) = true := by
  simp only [overlaps, overlapsAt, hab, h, Bool.and_self, Bool.or_true]

theorem overlaps_of_matches {α : Type v} {mem : κ → α → Bool}
    (hmeets : ∀ a b x, mem a x = true → mem b x = true → meets a b = true)
    {text : List α} (hl : matchTokens mem ls text = true)
    (hr : matchTokens mem rs text = true) : overlaps meets ls rs = true := by
  -- on the text, and for each text on the two patterns
  induction text generalizing ls rs with
  | nil =>
    rw [matchTokens_nil] at hl hr
    induction ls with
    | nil => exact hr
    | cons l ls ihls =>
      cases l with
      | star => exact overlaps_skip_left (ihls hl)
      | one a => cases hl
  | cons x text ihtext =>
    induction ls generalizing rs with
    | nil => cases hl
    | cons l ls ihls =>
      induction rs with
      | nil => cases hr
      | cons r rs ihrs =>
        cases l with
        | star =>
          rcases matchTokens_star_cons.1 hl with hl' | hl'
          · exact overlaps_skip_left (ihls hl' hr)
          · cases r with
            | star =>
              rcases matchTokens_star_cons.1 hr with hr' | hr'
              · exact overlaps_skip_right (ihrs hr')
              · exact ihtext hl' hr'
            | one b =>
              obtain ⟨-, hr'⟩ := matchTokens_one_cons.1 hr
              exact overlaps_star_one (ihtext hl' hr')
        | one a =>
          obtain ⟨hxa, hl'⟩ := matchTokens_one_cons.1 hl
          cases r with
          | star =>
            rcases matchTokens_star_cons.1 hr with hr' | hr'
            · exact overlaps_skip_right (ihrs hr')
            · exact overlaps_one_star (ihtext hl' hr')
          | one b =>
            obtain ⟨hxb, hr'⟩ := matchTokens_one_cons.1 hr
            exact overlaps_one_one (hmeets a b x hxa hxb)
              (ihtext hl' hr')

/-- What makes two patterns overlap: a wildcard of one of them stands for
nothing or takes a token of the other, or two classes meet. -/
theorem overlaps_cases {l r : Token κ}
    (h : overlaps meets (l :: ls) (r :: rs) = true) :
    ((l = .star ∨ r = .star) ∧ overlaps meets ls (r :: rs) = true)
      ∨ ((l = .star ∨ r = .star) ∧ overlaps meets (l :: ls) rs = true)
      ∨ ∃ a b, l = .one a ∧ r = .one b ∧ meets a b = true
        ∧ overlaps meets ls rs = true := by
  have h' : overlapsAt meets l ls (overlaps meets ls) (r :: rs) = true := h
  have hright : overlapsAt meets l ls (overlaps meets ls) rs
      = overlaps meets (l :: ls) rs := rfl
  simp only [overlapsAt, hright, Bool.or_eq_true, Bool.and_eq_true] at h'
  rcases h' with (hskip | hskip) | hrest
  · cases l with
    | star => exact Or.inl ⟨Or.inl rfl, hskip.2⟩
    | one a => cases hskip.1
  · cases r with
    | star => exact Or.inr (Or.inl ⟨Or.inr rfl, hskip.2⟩)
    | one b => cases hskip.1
  · cases l with
    | star =>
      cases r with
      | star => cases hrest
      | one b => exact Or.inr (Or.inl ⟨Or.inl rfl, hrest⟩)
    | one a =>
      cases r with
      | star => exact Or.inl ⟨Or.inr rfl, hrest⟩
      | one b =>
        obtain ⟨hmeet, hover⟩ := Bool.and_eq_true_iff.1 hrest
        exact Or.inr (Or.inr ⟨a, b, rfl, rfl, hmeet, hover⟩)

theorem overlaps_symm (hmeets : ∀ a b, meets a b = true → meets b a = true)
    (h : overlaps meets ls rs = true) : overlaps meets rs ls = true := by
  induction ls generalizing rs with
  | nil => exact (overlaps_nil_right rs).trans h
  | cons l ls ihls =>
    induction rs with
    | nil => exact h
    | cons r rs ihrs =>
      rcases overlaps_cases h with ⟨hstar, hov⟩ | ⟨hstar, hov⟩ | hone
      · cases l with
        | star => exact overlaps_skip_right (ihls hov)
        | one a =>
          obtain rfl := hstar.resolve_left (by simp)
          exact overlaps_star_one (ihls hov)
      · cases r with
        | star => exact overlaps_skip_left (ihrs hov)
        | one b =>
          obtain rfl := hstar.resolve_right (by simp)
          exact overlaps_one_star (ihrs hov)
      · obtain ⟨a, b, rfl, rfl, hab, hov⟩ := hone
        exact overlaps_one_one (hmeets a b hab) (ihls hov)

section Common

variable {α : Type v} {mem : κ → α → Bool} {P : α → Prop}
  {l r : Token κ} {ls rs : List (Token κ)}

/-- Some text of the alphabet `P` is matched by both patterns. -/
def Common (mem : κ → α → Bool) (P : α → Prop) (ls rs : List (Token κ)) :
    Prop :=
  ∃ text : List α, (∀ x ∈ text, P x) ∧ matchTokens mem ls text = true
    ∧ matchTokens mem rs text = true

theorem Common.symm (h : Common mem P ls rs) : Common mem P rs ls := by
  obtain ⟨text, hP, hml, hmr⟩ := h
  exact ⟨text, hP, hmr, hml⟩

theorem common_nil (h : rs.all Token.isStar = true) : Common mem P [] rs := by
  refine ⟨[], fun x hx => absurd hx List.not_mem_nil, rfl, ?_⟩
  rw [matchTokens_nil]
  exact h

theorem Common.cons (h : Common mem P ls (r :: rs))
    (hl : ∀ a, l = .one a → ∃ x, P x ∧ mem a x = true)
    (hstar : l = .star ∨ r = .star) : Common mem P (l :: ls) (r :: rs) := by
  obtain ⟨text, hP, hml, hmr⟩ := h
  cases l with
  | star => exact ⟨text, hP, matchTokens_star_of hml, hmr⟩
  | one a =>
    obtain ⟨x, hx, hmem⟩ := hl a rfl
    have hr : r = .star := hstar.resolve_left (fun h => by cases h)
    subst hr
    refine ⟨x :: text, ?_, ?_, ?_⟩
    · exact List.forall_mem_cons.2 ⟨hx, hP⟩
    · exact matchTokens_one_cons.2 ⟨hmem, hml⟩
    · exact matchTokens_star_cons.2 (Or.inr hmr)

theorem Common.cons_cons {a b : κ} (h : Common mem P ls rs)
    (hab : ∃ x, P x ∧ mem a x = true ∧ mem b x = true) :
    Common mem P (.one a :: ls) (.one b :: rs) := by
  obtain ⟨text, hP, hml, hmr⟩ := h
  obtain ⟨x, hx, hxa, hxb⟩ := hab
  refine ⟨x :: text, ?_, ?_, ?_⟩
  · exact List.forall_mem_cons.2 ⟨hx, hP⟩
  · exact matchTokens_one_cons.2 ⟨hxa, hml⟩
  · exact matchTokens_one_cons.2 ⟨hxb, hmr⟩

/-- Patterns that overlap match one text, of characters that `P` holds of,
where it holds of one in each class and of one in both classes that
meet. -/
theorem common_of_overlaps (hl : ∀ a, .one a ∈ ls → ∃ x, P x ∧ mem a x = true)
    (hr : ∀ b, .one b ∈ rs → ∃ x, P x ∧ mem b x = true)
    (hmeets : ∀ a b, .one a ∈ ls → .one b ∈ rs → meets a b = true →
      ∃ x, P x ∧ mem a x = true ∧ mem b x = true)
    (h : overlaps meets ls rs = true) : Common mem P ls rs := by
  -- on the left pattern, and for each on the right one
  induction ls generalizing rs with
  | nil => exact common_nil h
  | cons l ls ihls =>
    induction rs with
    | nil => exact (common_nil (by rw [← overlaps_nil_right]; exact h)).symm
    | cons r rs ihrs =>
      have hl' : ∀ a, .one a ∈ ls → ∃ x, P x ∧ mem a x = true :=
        fun a ha => hl a (List.mem_cons_of_mem _ ha)
      have hr' : ∀ b, .one b ∈ rs → ∃ x, P x ∧ mem b x = true :=
        fun b hb => hr b (List.mem_cons_of_mem _ hb)
      rcases overlaps_cases h with
        ⟨hstar, hover⟩ | ⟨hstar, hover⟩ | ⟨a, b, rfl, rfl, hmeet, hover⟩
      · have hcommon : Common mem P ls (r :: rs) :=
          ihls hl' hr
            (fun a b ha hb => hmeets a b (List.mem_cons_of_mem _ ha) hb)
            hover
        refine hcommon.cons (fun a ha => hl a ?_) hstar
        rw [ha]
        exact List.mem_cons_self ..
      · have hcommon : Common mem P (l :: ls) rs :=
          ihrs hr'
            (fun a b ha hb => hmeets a b ha (List.mem_cons_of_mem _ hb))
            hover
        refine (hcommon.symm.cons (fun b hb => hr b ?_) hstar.symm).symm
        rw [hb]
        exact List.mem_cons_self ..
      · have hcommon : Common mem P ls rs :=
          ihls hl' hr' (fun a b ha hb => hmeets a b
            (List.mem_cons_of_mem _ ha) (List.mem_cons_of_mem _ hb)) hover
        exact hcommon.cons_cons (hmeets a b (List.mem_cons_self ..)
          (List.mem_cons_self ..) hmeet)

end Common

end Overlap

end WeaveRuntime.Lib.Glob
