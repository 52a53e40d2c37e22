/-
Validated lists of profiles, resolved.

Two profiles that one resolution finds side by side serve one provider, so
validation has compared them. It has caught them if they have one name,
one exact selector, no selector, or one pattern; two different patterns it
has caught if their readings overlap, and they do where both readings match
the model. That leaves the models that `fnmatch` matches and the
tokenizer's reading does not.
-/
import WeaveRuntime.ContextWindow.Profiles

namespace WeaveRuntime.ContextWindow

open Lib
open Lib.Glob
open Python

-- ====== the statements

/-- A name made of characters of the alphabet. -/
def Printable (model : String) : Prop :=
  ∀ c ∈ model.toList, c ∈ modelSelectorAlphabet

/-- The character is in the set of a token. -/
def inToken (k : List Char) (c : Char) : Bool := decide (c ∈ k)

def readsAs (model selector : String) : Bool :=
  matchTokens inToken (tokenizeSelectorPattern selector) model.toList

/-- Resolution never raises an 'Ambiguous' error for a provider, by model
or by name. -/
def Unambiguous (profiles : List ModelContextWindowProfile) : Prop :=
  (∀ provider model, Printable model → ∀ e,
      resolveContextWindowProfile (some provider) (some model) profiles none
        = .error e → e.isAmbiguous = false)
    ∧ ∀ provider model ref e,
      resolveContextWindowProfile (some provider) model profiles (some ref)
        = .error e → e.isAmbiguous = false

/-- Two pattern profiles that a provider is served by, and that `fnmatch`
finds for one model, are found for it by the tokenizer's reading too,
unless an exact profile takes the model first. -/
def ReadAlike (profiles : List ModelContextWindowProfile) : Prop :=
  ∀ provider model, Printable model →
    coveringOf .exact (some provider) (some model) profiles = [] →
    profiles.Pairwise fun q p => ∀ earlier selector,
      q.modelSelector = some earlier → p.modelSelector = some selector →
      q ∈ coveringOf .pattern (some provider) (some model) profiles →
      p ∈ coveringOf .pattern (some provider) (some model) profiles →
      readsAs model earlier = true ∧ readsAs model selector = true

-- ========== validation

theorem validateAfter_eq_nil {passed rest : List ModelContextWindowProfile} :
    validateAfter passed rest = []
      ↔ (∀ q ∈ passed, ∀ p ∈ rest, diagnostics p q = [])
        ∧ rest.Pairwise fun q p => diagnostics p q = [] := by
  induction rest generalizing passed with
  | nil => simp [validateAfter]
  | cons profile rest ih =>
    rw [validateAfter, List.append_eq_nil_iff, ih, List.flatMap_eq_nil_iff,
      List.pairwise_cons]
    refine ⟨?_, ?_⟩
    · intro h
      obtain ⟨hprofile, hrest, hpair⟩ := h
      refine ⟨?_, ?_, hpair⟩
      · intro q hq p hp
        rcases List.mem_cons.1 hp with rfl | hp
        · exact hprofile q hq
        · exact hrest q (List.mem_append_left _ hq) p hp
      · intro p hp
        exact hrest profile (by simp) p hp
    · intro h
      obtain ⟨hpassed, hprofile, hpair⟩ := h
      refine ⟨fun q hq => hpassed q hq profile (List.mem_cons_self ..), ?_,
        hpair⟩
      intro q hq p hp
      rcases List.mem_append.1 hq with hq | hq
      · exact hpassed q hq p (List.mem_cons_of_mem _ hp)
      · rw [List.mem_singleton.1 hq]
        exact hprofile p hp

variable {e : ResolutionError} {found : List ModelContextWindowProfile}
  {kind : SelectorKind} {model : String} {p : ModelContextWindowProfile}
  {profiles : List ModelContextWindowProfile} {provider : String}
  {q : ModelContextWindowProfile}

theorem validate_eq_nil
    (h : validateModelContextWindowProfiles profiles = []) :
    profiles.Pairwise fun q p => diagnostics p q = [] :=
  (validateAfter_eq_nil.1 h).2

theorem scopes_overlap_of_serves (hp : p.serves (some provider) = true)
    (hq : q.serves (some provider) = true) :
    providerScopesOverlap p.providerName q.providerName = true := by
  unfold ModelContextWindowProfile.serves at hp hq
  unfold providerScopesOverlap
  cases hpn : p.providerName with
  | none => rfl
  | some a =>
    cases hqn : q.providerName with
    | none => rfl
    | some b =>
      rw [hpn] at hp
      rw [hqn] at hq
      have ha : a = provider := by simpa using hp
      have hb : b = provider := by simpa using hq
      rw [ha, hb]
      simp

theorem compared (h : diagnostics p q = [])
    (hscopes : providerScopesOverlap p.providerName q.providerName = true) :
    ∃ label, refDiagnostics label p q = []
      ∧ selectorDiagnostics label p q = [] := by
  unfold diagnostics at h
  rw [if_pos hscopes] at h
  exact ⟨_, List.append_eq_nil_iff.1 h⟩

-- ========== resolution

theorem single_eq_error {error : ResolutionError}
    (h : single found error = .error e) :
    e = error ∧ ∃ a b rest, found = a :: b :: rest := by
  match found with
  | [] => cases h
  | [a] => cases h
  | a :: b :: rest =>
    cases h
    exact ⟨rfl, a, b, rest, rfl⟩

theorem single_of_two {a b : ModelContextWindowProfile}
    (h : List.Sublist [a, b] found) (error : ResolutionError) :
    single found error = .error error := by
  match found with
  | [] => cases h
  | [c] =>
    have hlen := h.length_le
    simp at hlen
  | c :: d :: rest => rfl

theorem single_eq_none {error : ResolutionError}
    (h : single found error = .ok none) : found = [] := by
  match found with
  | [] => rfl
  | [a] => cases h
  | a :: b :: rest => cases h

theorem candidates_related
    {R : ModelContextWindowProfile → ModelContextWindowProfile → Prop}
    {rest : List ModelContextWindowProfile}
    {keep : ModelContextWindowProfile → Bool}
    {a b : ModelContextWindowProfile} (h : profiles.Pairwise R)
    (hfound : profiles.filter keep = a :: b :: rest) :
    R a b ∧ keep a = true ∧ keep b = true := by
  have hpair := h.filter keep
  rw [hfound] at hpair
  have hall : ∀ p ∈ a :: b :: rest, keep p = true := by
    intro p hp
    rw [← hfound] at hp
    exact (List.mem_filter.1 hp).2
  refine ⟨?_, hall a (by simp), hall b (by simp)⟩
  exact (List.pairwise_cons.1 hpair).1 b (by simp)

theorem overlap_of_readsAs {left right : String}
    (hl : readsAs model left = true) (hr : readsAs model right = true) :
    selectorPatternsOverlap left right = true := by
  have hl' : matchTokens inToken _ model.toList = true := hl
  have hr' : matchTokens inToken _ model.toList = true := hr
  refine overlaps_of_matches ?_ hl' hr'
  intro a b c ha hb
  exact List.any_eq_true.2 ⟨c, of_decide_eq_true ha, hb⟩

theorem reported_of_ref {ref : String}
    (hscopes : providerScopesOverlap p.providerName q.providerName = true)
    (hq : q.profileName = some ref) (hp : p.profileName = some ref) :
    diagnostics p q ≠ [] := by
  intro h
  obtain ⟨label, hdiag, -⟩ := compared h hscopes
  unfold refDiagnostics at hdiag
  rw [hp, hq] at hdiag
  simp at hdiag

def CoversAs (p : ModelContextWindowProfile) (model : String) :
    SelectorKind → Prop
  | .providerDefault => p.modelSelector = none
  | .pattern => ∃ s, p.modelSelector = some s
      ∧ selectorHasPattern s = true ∧ fnmatch model s = true
  | .exact => p.modelSelector = some model
      ∧ selectorHasPattern model = false

theorem coversAs {provider : Option String}
    (h : (p.covers provider (some model)
      && decide (p.selectorKind = kind)) = true) :
    p.serves provider = true ∧ p.selectorKind = kind
      ∧ CoversAs p model kind := by
  rw [Bool.and_eq_true, decide_eq_true_eq] at h
  obtain ⟨hcovers, rfl⟩ := h
  unfold ModelContextWindowProfile.covers at hcovers
  rw [Bool.and_eq_true] at hcovers
  obtain ⟨hserves, hcovers⟩ := hcovers
  refine ⟨hserves, rfl, ?_⟩
  unfold ModelContextWindowProfile.selectorKind
  cases hs : p.modelSelector with
  | none => exact hs
  | some s =>
    rw [hs] at hcovers
    dsimp only at hcovers ⊢
    by_cases hpattern : selectorHasPattern s = true
    · rw [if_pos hpattern] at hcovers ⊢
      exact ⟨s, hs, hpattern, hcovers⟩
    · rw [if_neg hpattern] at hcovers ⊢
      rw [beq_iff_eq] at hcovers
      rw [Bool.not_eq_true] at hpattern
      subst hcovers
      exact ⟨hs, hpattern⟩

theorem selectors_compared (h : diagnostics p q = [])
    (hscopes : providerScopesOverlap p.providerName q.providerName = true)
    (hkind : p.selectorKind = q.selectorKind) :
    ∃ selector earlier, p.modelSelector = some selector
      ∧ q.modelSelector = some earlier ∧ selector ≠ earlier
      ∧ (selectorHasPattern selector = true →
        selectorPatternsOverlap selector earlier = false) := by
  obtain ⟨label, -, hdiag⟩ := compared h hscopes
  unfold selectorDiagnostics at hdiag
  rw [if_neg (not_not.2 hkind)] at hdiag
  split at hdiag
  · next selector earlier hs hs' =>
    refine ⟨selector, earlier, hs, hs', ?_, ?_⟩
    · intro heq
      rw [if_pos heq, if_pos heq] at hdiag
      split at hdiag <;> cases hdiag
    · intro hpattern
      rw [if_pos hpattern] at hdiag
      split at hdiag
      · cases hdiag
      · split at hdiag
        · cases hdiag
        · next hover => exact Bool.eq_false_iff.2 hover
  · cases hdiag
  · -- of one kind, neither or both have a selector
    next selector hs hs' =>
    exfalso
    unfold ModelContextWindowProfile.selectorKind at hkind
    rw [hs, hs'] at hkind
    dsimp only at hkind
    split at hkind <;> cases hkind

theorem reported_of_covers {provider : Option String}
    (hscopes : providerScopesOverlap p.providerName q.providerName = true)
    (hkind : kind ≠ .pattern) (hq : (q.covers provider (some model)
      && decide (q.selectorKind = kind)) = true)
    (hp : (p.covers provider (some model)
      && decide (p.selectorKind = kind)) = true) : diagnostics p q ≠ [] := by
  intro h
  obtain ⟨-, hpk, hpc⟩ := coversAs hp
  obtain ⟨-, hqk, hqc⟩ := coversAs hq
  obtain ⟨selector, earlier, hsel, hear, hne, -⟩ :=
    selectors_compared h hscopes (hpk.trans hqk.symm)
  cases kind with
  | pattern => exact hkind rfl
  | providerDefault =>
    have hnone : p.modelSelector = none := hpc
    rw [hsel] at hnone
    cases hnone
  | exact =>
    have hp' : p.modelSelector = some model := hpc.1
    have hq' : q.modelSelector = some model := hqc.1
    rw [hsel] at hp'
    rw [hear] at hq'
    exact hne ((Option.some.inj hp').trans (Option.some.inj hq').symm)

theorem reported_of_readsAs {provider : Option String}
    (hscopes : providerScopesOverlap p.providerName q.providerName = true)
    (hq : (q.covers provider (some model)
      && decide (q.selectorKind = .pattern)) = true)
    (hp : (p.covers provider (some model)
      && decide (p.selectorKind = .pattern)) = true)
    (hreads : ∀ earlier selector, q.modelSelector = some earlier →
      p.modelSelector = some selector →
      readsAs model earlier = true ∧ readsAs model selector = true) :
    diagnostics p q ≠ [] := by
  intro h
  obtain ⟨-, hpk, s, hs, hpattern, -⟩ := coversAs hp
  obtain ⟨-, hqk, -⟩ := coversAs hq
  obtain ⟨selector, earlier, hsel, hear, -, hover⟩ :=
    selectors_compared h hscopes (hpk.trans hqk.symm)
  have hsame : s = selector := by
    rw [hsel] at hs
    exact (Option.some.inj hs).symm
  subst hsame
  obtain ⟨hre, hrs⟩ := hreads earlier s hear hsel
  have hno := hover hpattern
  rw [overlap_of_readsAs hrs hre] at hno
  cases hno

/-- Resolution by name raises no 'Ambiguous' error for a list reported for
nothing. -/
theorem resolveByRef_unambiguous
    (h : profiles.Pairwise fun q p => diagnostics p q = [])
    (provider ref : String)
    (he : resolveByRef (some provider) profiles ref = .error e) :
    e.isAmbiguous = false := by
  rcases bind_eq_error.1 he with hsingle | ⟨found, hfound, hrest⟩
  · obtain ⟨-, a, b, rest, hab⟩ := single_eq_error hsingle
    obtain ⟨hdiag, ha, hb⟩ := candidates_related h hab
    rw [Bool.and_eq_true, beq_iff_eq] at ha hb
    exact absurd hdiag (reported_of_ref
      (scopes_overlap_of_serves hb.2 ha.2) ha.1 hb.1)
  · cases found with
    | some p => cases hrest
    | none =>
      cases hrest
      rfl

theorem scopes_overlap_of_covers {kind' : SelectorKind}
    (hq : (q.covers (some provider) (some model)
      && decide (q.selectorKind = kind)) = true)
    (hp : (p.covers (some provider) (some model)
      && decide (p.selectorKind = kind')) = true) :
    providerScopesOverlap p.providerName q.providerName = true :=
  scopes_overlap_of_serves (coversAs hp).1 (coversAs hq).1

/-- Resolution by model raises one only where two patterns are found, and
no exact profile before them. -/
theorem resolveByModel_ambiguous
    (h : profiles.Pairwise fun q p => diagnostics p q = [])
    (he : resolveByModel (some provider) (some model) profiles = .error e) :
    coveringOf .exact (some provider) (some model) profiles = []
      ∧ ∃ a b rest, coveringOf .pattern (some provider) (some model) profiles
        = a :: b :: rest := by
  rcases bind_eq_error.1 he with hexact | ⟨found, hexact, he⟩
  · obtain ⟨-, a, b, rest, hab⟩ := single_eq_error hexact
    obtain ⟨hdiag, ha, hb⟩ := candidates_related h hab
    exact absurd hdiag (reported_of_covers
      (scopes_overlap_of_covers ha hb) (by decide) ha hb)
  · cases found with
    | some p => cases he
    | none =>
      refine ⟨single_eq_none hexact, ?_⟩
      rcases bind_eq_error.1 he with hpattern | ⟨found, hpattern, he⟩
      · exact (single_eq_error hpattern).2
      · cases found with
        | some p => cases he
        | none =>
          obtain ⟨-, a, b, rest, hab⟩ := single_eq_error he
          obtain ⟨hdiag, ha, hb⟩ := candidates_related h hab
          exact absurd hdiag (reported_of_covers
            (scopes_overlap_of_covers ha hb) (by decide) ha hb)

theorem resolveByModel_of_two
    (hexact : coveringOf .exact (some provider) (some model) profiles = [])
    (hpair : List.Sublist [q, p]
      (coveringOf .pattern (some provider) (some model) profiles)) :
    resolveByModel (some provider) (some model) profiles
      = .error (.ambiguous .pattern (some provider)) := by
  unfold resolveByModel
  rw [hexact, single_of_two hpair]
  rfl

-- ========== the result

/-- Of a list that validation reports nothing for, resolution is never
ambiguous exactly when the tokenizer reads every two patterns that
`fnmatch` finds for one model as matching it. -/
theorem resolution_unambiguous_iff {profiles : List ModelContextWindowProfile}
    (h : validateModelContextWindowProfiles profiles = []) :
    Unambiguous profiles ↔ ReadAlike profiles := by
  have hdiag := validate_eq_nil h
  refine ⟨?_, ?_⟩
  · intro hun provider model hprintable hexact
    rw [List.pairwise_iff_forall_sublist]
    intro q p hqp earlier selector _ _ hq hp
    -- the pair would be found side by side
    have hpair : List.Sublist [q, p]
        (coveringOf .pattern (some provider) (some model) profiles) := by
      have hfilter := hqp.filter fun r =>
        r.covers (some provider) (some model)
          && decide (r.selectorKind = .pattern)
      rwa [List.filter_eq_self.2 ?_] at hfilter
      intro r hr
      rcases List.mem_cons.1 hr with rfl | hr
      · exact (List.mem_filter.1 hq).2
      · rw [List.mem_singleton.1 hr]
        exact (List.mem_filter.1 hp).2
    have hno := hun.1 provider model hprintable _
      (resolveByModel_of_two hexact hpair)
    cases hno
  · intro halike
    refine ⟨?_, ?_⟩
    · intro provider model hprintable e he
      obtain ⟨hexact, a, b, rest, hab⟩ := resolveByModel_ambiguous hdiag he
      exfalso
      have hreads := halike provider model hprintable hexact
      obtain ⟨hdiag', ha, hb⟩ := candidates_related hdiag hab
      obtain ⟨hreads', -, -⟩ := candidates_related hreads hab
      refine reported_of_readsAs (scopes_overlap_of_covers ha hb) ha hb
        (fun earlier selector hq hp => ?_) hdiag'
      refine hreads' earlier selector hq hp ?_ ?_
      · rw [hab]
        exact List.mem_cons_self ..
      · rw [hab]
        exact List.mem_cons_of_mem _ (List.mem_cons_self ..)
    · intro provider model ref e he
      exact resolveByRef_unambiguous hdiag provider ref he

-- ===== plain selectors

/-- A body in which both readers see the same ranges: none ends in `-`, and
under a negation none is out of order. -/
def plainRanges (negated : Bool) : List Char → Bool
  | c :: '-' :: d :: cs =>
    decide (d ≠ '-') && (!negated || decide (c ≤ d))
      && plainRanges negated cs
  | _ :: cs => plainRanges negated cs
  | [] => true

/-- A class that both readers read alike: no leading `^`. -/
def plainBody : List Char → Bool
  | '^' :: _ => false
  | '!' :: body => plainRanges true body
  | body => plainRanges false body

/-- A pattern whose classes are all plain, and end where both readers end
them: no `]` right after an opening. -/
def plainLoop : Nat → List Char → Bool
  | _, [] => true
  | 0, _ :: _ => true
  | n + 1, c :: cs =>
    if c = '[' then
      decide (fnmatchSplit cs = splitAtClose cs)
        && match splitAtClose cs with
          | some (body, rest) => plainBody body && plainLoop n rest
          | none => plainLoop n cs
    else plainLoop n cs

def plainSelector (selector : String) : Bool :=
  plainLoop selector.toList.length selector.toList

theorem inRanges_cons {r : Char × Char} {rs : List (Char × Char)} {x : Char} :
    inRanges (r :: rs) x = true
      ↔ (r.1 ≤ x ∧ x ≤ r.2) ∨ inRanges rs x = true := by
  unfold inRanges
  rw [List.any_cons, Bool.or_eq_true, Bool.and_eq_true, decide_eq_true_eq,
    decide_eq_true_eq]

/-- Where the ranges are plain, what `fnmatch` reads in them the tokenizer
does too. -/
theorem inRanges_selector {cs : List Char} {x : Char}
    (h : plainRanges false cs = true)
    (hx : inRanges (fnmatchRanges cs) x = true) :
    inRanges (selectorRanges cs) x = true := by
  induction cs using fnmatchRanges.induct with
  | case1 c d cs hle ih =>
    rw [plainRanges, Bool.and_eq_true, Bool.and_eq_true,
      decide_eq_true_eq] at h
    rw [fnmatchRanges, if_pos hle, inRanges_cons] at hx
    rw [selectorRanges, if_pos h.1.1, if_pos hle, inRanges_cons]
    exact hx.imp_right fun hx => ih h.2 hx
  | case2 c d cs hle ih =>
    rw [plainRanges, Bool.and_eq_true, Bool.and_eq_true,
      decide_eq_true_eq] at h
    rw [fnmatchRanges, if_neg hle] at hx
    rw [selectorRanges, if_pos h.1.1, inRanges_cons]
    exact Or.inr (ih h.2 hx)
  | case3 c cs hne ih =>
    rw [plainRanges.eq_2 _ _ _ hne] at h
    rw [fnmatchRanges.eq_2 _ _ hne, inRanges_cons] at hx
    rw [selectorRanges.eq_2 _ _ hne, inRanges_cons]
    exact hx.imp_right fun hx => ih h hx
  | case4 => cases hx

theorem selectorRanges_eq {cs : List Char} (h : plainRanges true cs = true) :
    selectorRanges cs = fnmatchRanges cs := by
  induction cs using fnmatchRanges.induct with
  | case1 c d cs hle ih =>
    rw [plainRanges, Bool.and_eq_true, Bool.and_eq_true,
      decide_eq_true_eq] at h
    rw [fnmatchRanges, if_pos hle, selectorRanges, if_pos h.1.1,
      if_pos hle, ih h.2]
  | case2 c d cs hle ih =>
    rw [plainRanges, Bool.and_eq_true, Bool.and_eq_true] at h
    have hcd : c ≤ d := by simpa using h.1.2
    exact absurd hcd hle
  | case3 c cs hne ih =>
    rw [plainRanges.eq_2 _ _ _ hne] at h
    rw [fnmatchRanges.eq_2 _ _ hne, selectorRanges.eq_2 _ _ hne, ih h]
  | case4 => rfl

theorem mem_selectorClass_iff {body : List Char} {x : Char} :
    x ∈ selectorClass body ↔ x ∈ modelSelectorAlphabet
      ∧ (inRanges (selectorRanges (selectorNegation body).2) x
        != (selectorNegation body).1) = true := by
  unfold selectorClass
  exact List.mem_filter

theorem mem_selectorClass {body : List Char} {x : Char}
    (h : plainBody body = true) (halpha : x ∈ modelSelectorAlphabet)
    (hx : (fnmatchClass body).mem x = true) :
    inToken (selectorClass body) x = true := by
  refine decide_eq_true (mem_selectorClass_iff.2 ⟨halpha, ?_⟩)
  unfold plainBody at h
  split at h
  · cases h
  · next rest =>
    have hx' : (inRanges (fnmatchRanges rest) x != true) = true := hx
    show (inRanges (selectorRanges rest) x != true) = true
    rw [selectorRanges_eq h]
    exact hx'
  · next hcaret hbang =>
    have hneg : selectorNegation body = (false, body) := by
      unfold selectorNegation
      split
      · next rest => exact absurd rfl (hbang rest)
      · next rest => exact absurd rfl (hcaret rest)
      · rfl
    have hclass : fnmatchClass body = ⟨false, fnmatchRanges body⟩ := by
      unfold fnmatchClass
      split
      · next rest => exact absurd rfl (hbang rest)
      · rfl
    rw [hclass] at hx
    rw [hneg]
    have hx' : (inRanges (fnmatchRanges body) x != false) = true := hx
    show (inRanges (selectorRanges body) x != false) = true
    rw [Bool.bne_false] at hx' ⊢
    exact inRanges_selector h hx'

theorem tokens_widen {n : Nat} {cs : List Char} (h : plainLoop n cs = true) :
    List.Forall₂ (Token.Widens CharClass.mem inToken
        (· ∈ modelSelectorAlphabet))
      (tokenizeLoop fnmatchReading n cs)
      (tokenizeLoop selectorReading n cs) := by
  have hany : Token.Widens CharClass.mem inToken (· ∈ modelSelectorAlphabet)
      (.one fnmatchReading.anyChar) (.one selectorReading.anyChar) :=
    .one fun x halpha _ => decide_eq_true halpha
  have hliteral : ∀ c, Token.Widens CharClass.mem inToken
      (· ∈ modelSelectorAlphabet) (.one (fnmatchReading.literal c))
      (.one (selectorReading.literal c)) := by
    intro c
    refine .one fun x _ hx => decide_eq_true ?_
    rw [mem_literal] at hx
    rw [hx]
    exact List.mem_cons_self ..
  induction n generalizing cs with
  | zero =>
    cases cs with
    | nil => exact .nil
    | cons c cs => exact .nil
  | succ n ih =>
    cases cs with
    | nil => exact .nil
    | cons c cs =>
      unfold plainLoop at h
      unfold tokenizeLoop
      by_cases hstar : c = '*'
      · subst hstar
        rw [if_pos rfl, if_pos rfl]
        rw [if_neg (by decide)] at h
        exact .cons .star (ih h)
      · rw [if_neg hstar, if_neg hstar]
        by_cases hquestion : c = '?'
        · subst hquestion
          rw [if_pos rfl, if_pos rfl]
          rw [if_neg (by decide)] at h
          exact .cons hany (ih h)
        · rw [if_neg hquestion, if_neg hquestion]
          by_cases hopen : c = '['
          · rw [if_pos hopen] at h ⊢
            rw [if_pos hopen]
            rw [Bool.and_eq_true, decide_eq_true_eq] at h
            obtain ⟨hsplit, h⟩ := h
            have hsplit' : fnmatchReading.split cs
                = selectorReading.split cs := hsplit
            rw [hsplit']
            cases hclose : splitAtClose cs with
            | none =>
              have hsel : selectorReading.split cs = none := hclose
              rw [hsel]
              rw [hclose] at h
              exact .cons (hliteral c) (ih h)
            | some e =>
              have hsel : selectorReading.split cs = some e := hclose
              rw [hsel]
              rw [hclose] at h
              obtain ⟨body, rest⟩ := e
              dsimp only at h
              rw [Bool.and_eq_true] at h
              refine .cons (.one ?_) (ih h.2)
              intro x halpha hx
              exact mem_selectorClass h.1 halpha hx
          · rw [if_neg hopen] at h ⊢
            rw [if_neg hopen]
            exact .cons (hliteral c) (ih h)

theorem readsAs_of_plain {selector : String}
    (hplain : plainSelector selector = true) (hprintable : Printable model)
    (h : fnmatch model selector = true) : readsAs model selector = true :=
  matchTokens_widen (tokens_widen hplain) hprintable h

theorem readAlike_of_plain
    (h : ∀ p ∈ profiles, ∀ selector, p.modelSelector = some selector →
      plainSelector selector = true) : ReadAlike profiles := by
  intro provider model hprintable _
  rw [List.pairwise_iff_forall_sublist]
  intro q p hqp earlier selector hear hsel hq hp
  have hreads : ∀ r s, r ∈ profiles → r.modelSelector = some s →
      r ∈ coveringOf .pattern (some provider) (some model) profiles →
      readsAs model s = true := by
    intro r s hr hs hcovers
    obtain ⟨-, -, s', hs', -, hmatch⟩ :=
      coversAs (List.mem_filter.1 hcovers).2
    rw [hs] at hs'
    cases hs'
    exact readsAs_of_plain (h r hr s hs) hprintable hmatch
  exact ⟨hreads q earlier (hqp.subset (by simp)) hear hq,
    hreads p selector (hqp.subset (by simp)) hsel hp⟩

-- ======== two examples

/-- Profiles of three models of one provider and of one of another. -/
def fixedProfiles : List ModelContextWindowProfile :=
  [⟨some "openai", some "gpt-4*", some "gpt-4"⟩,
    ⟨some "openai", some "o[1-9]", some "reasoning"⟩,
    ⟨some "openai", some "gpt-4", none⟩,
    ⟨some "anthropic", some "*", none⟩]

theorem fixedProfiles_unambiguous : Unambiguous fixedProfiles :=
  (resolution_unambiguous_iff (by decide)).2
    (readAlike_of_plain (by decide))

/-- A leading `^` is a negation to the tokenizer only, and a `]` right
after an opening closes the class for it only: neither pair is reported,
and both are ambiguous. -/
theorem validated_profiles_ambiguous :
    validateModelContextWindowProfiles
        [⟨none, some "a*", none⟩, ⟨none, some "[^a]", none⟩] = []
      ∧ Printable "a"
      ∧ resolveContextWindowProfile (some "openai") (some "a")
          [⟨none, some "a*", none⟩, ⟨none, some "[^a]", none⟩] none
        = .error (.ambiguous .pattern (some "openai"))
      ∧ validateModelContextWindowProfiles
        [⟨none, some "a*", none⟩, ⟨none, some "[]a]", none⟩] = []
      ∧ resolveContextWindowProfile (some "openai") (some "a")
          [⟨none, some "a*", none⟩, ⟨none, some "[]a]", none⟩] none
        = .error (.ambiguous .pattern (some "openai")) := by
  refine ⟨by decide, ?_, rfl, by decide, rfl⟩
  intro c hc
  have ha : c = 'a' := List.mem_singleton.1 hc
  rw [ha]
  exact List.mem_map.2 ⟨64, List.mem_range.2 (by omega), rfl⟩

end WeaveRuntime.ContextWindow
