/-
Rewriting a sequence by its leftmost matches: the scan of `finditer`, and
the substitution of `sub`.

A matcher looks at one position, the element before it and everything from
it on, and says how long the match there is. `scan` goes from left to right
and cuts the sequence into the elements it passes and the spans it finds; a
span is skipped before the scan looks again, so no two of them overlap.
`rewrite` puts a replacement in the place of each span, and never looks at
a replacement.

# What a second pass may touch

Two passes are another matter: the second sees what the first put in.
`countP_rewrite_lt` is the tool for telling that it did something there: a
marked element at which a match begins does not survive the pass, however
the pass came to it, while `countP_le_rewrite` says that marked elements in
no span all survive. `mem_scan_of_match` is the converse for a matcher whose
matches cannot reach a position from before it: there the match is found.
-/
import Mathlib.Data.List.Basic

namespace WeaveRuntime.Lib.Rewrite

-- =============== scans

/-- From the element before a position and the elements from it on: the
length of the match there, and what it says. -/
abbrev Matcher (α : Type u) (β : Type v) :=
  Option α → List α → Option (Nat × β)

/-- What a scan cuts a sequence into. -/
inductive Piece (α : Type u) (β : Type v) where
  | kept (a : α)
  | found (span : List α) (b : β)

variable {α : Type u} {β : Type v}

/-- The elements of a piece. -/
def Piece.span : Piece α β → List α
  | .kept a => [a]
  | .found s _ => s

/-- A piece after the substitution. -/
def Piece.render (f : List α → β → List α) : Piece α β → List α
  | .kept a => [a]
  | .found s b => f s b

/-- What a match says, for a span that was found. -/
def Piece.value? : Piece α β → Option β
  | .kept _ => none
  | .found _ b => some b

/-- The pieces of a sequence: `skip` elements belong to the span before. -/
def scan (m : Matcher α β) : Option α → Nat → List α → List (Piece α β)
  | _, _, [] => []
  | _, skip + 1, a :: rest => scan m (some a) skip rest
  | prev, 0, a :: rest =>
    match m prev (a :: rest) with
    | none => .kept a :: scan m (some a) 0 rest
    | some (n, b) =>
      .found ((a :: rest).take (max n 1)) b
        :: scan m (some a) (n - 1) rest

/-- `pattern.finditer(text)`, with what lies between the matches. -/
def pieces (m : Matcher α β) (text : List α) : List (Piece α β) :=
  scan m none 0 text

/-- What the matches say, in order. -/
def finds (m : Matcher α β) (text : List α) : List β :=
  (pieces m text).filterMap Piece.value?

/-- `pattern.sub(f, text)`. -/
def rewrite (m : Matcher α β) (f : List α → β → List α) (text : List α) :
    List α :=
  (pieces m text).flatMap (Piece.render f)

/-- The element before a position. -/
def lastOf (prev : Option α) (before : List α) : Option α :=
  before.foldl (fun _ a => some a) prev

variable {m m' : Matcher α β} {f : List α → β → List α}

variable {a : α} {before : List α} {k : Nat} {prev : Option α}
  {rest text : List α}

@[simp] theorem scan_nil : scan m prev k [] = [] := by
  cases k with
  | zero => rfl
  | succ k => rfl

@[simp] theorem scan_skip :
    scan m prev (k + 1) (a :: rest) = scan m (some a) k rest := rfl

theorem scan_kept (h : m prev (a :: rest) = none) :
    scan m prev 0 (a :: rest) = .kept a :: scan m (some a) 0 rest := by
  rw [scan, h]

theorem scan_found {n : Nat} {b : β} (h : m prev (a :: rest) = some (n, b)) :
    scan m prev 0 (a :: rest)
      = .found ((a :: rest).take (max n 1)) b
        :: scan m (some a) (n - 1) rest := by
  rw [scan, h]

@[simp] theorem lastOf_nil : lastOf prev [] = prev := rfl

@[simp] theorem lastOf_cons :
    lastOf prev (a :: before) = lastOf (some a) before := rfl

theorem lastOf_concat : lastOf prev (before ++ [a]) = some a := by
  unfold lastOf
  rw [List.foldl_append]
  rfl

-- ======= what is found

theorem scan_cover (m : Matcher α β) (prev : Option α) (k : Nat)
    (text : List α) :
    (scan m prev k text).flatMap Piece.span = text.drop k := by
  induction text generalizing prev k with
  | nil => simp
  | cons a rest ih =>
    cases k with
    | succ k => rw [scan_skip, ih, List.drop_succ_cons]
    | zero =>
      cases h : m prev (a :: rest) with
      | none =>
        rw [scan_kept h, List.flatMap_cons, ih]
        rfl
      | some r =>
        obtain ⟨n, b⟩ := r
        rw [scan_found h, List.flatMap_cons, ih]
        show (a :: rest).take (max n 1) ++ rest.drop (n - 1) = _
        have hmax : max n 1 = n - 1 + 1 := by omega
        rw [hmax, List.take_succ_cons, List.cons_append,
          List.take_append_drop]
        rfl

theorem pieces_cover (m : Matcher α β) (text : List α) :
    (pieces m text).flatMap Piece.span = text := scan_cover m none 0 text

theorem match_of_mem_scan {s : List α} {b : β}
    (h : .found s b ∈ scan m prev k text) :
    ∃ before rest n, text = before ++ rest
      ∧ m (lastOf prev before) rest = some (n, b)
      ∧ s = rest.take (max n 1) := by
  induction text generalizing prev k with
  | nil =>
    rw [scan_nil] at h
    cases h
  | cons a rest ih =>
    cases k with
    | succ k =>
      obtain ⟨before, tail, n, ht, hm, hs⟩ := ih h
      exact ⟨a :: before, tail, n, by rw [ht, List.cons_append], hm, hs⟩
    | zero =>
      cases hm : m prev (a :: rest) with
      | none =>
        rw [scan_kept hm] at h
        cases h with
        | tail _ h =>
          obtain ⟨before, tail, n, ht, hmt, hs⟩ := ih h
          refine ⟨a :: before, tail, n, ?_, hmt, hs⟩
          rw [ht, List.cons_append]
      | some r =>
        obtain ⟨n, c⟩ := r
        rw [scan_found hm] at h
        cases h with
        | head => exact ⟨[], a :: rest, n, rfl, hm, rfl⟩
        | tail _ h =>
          obtain ⟨before, tail, n, ht, hmt, hs⟩ := ih h
          refine ⟨a :: before, tail, n, ?_, hmt, hs⟩
          rw [ht, List.cons_append]

theorem scan_congr {P : α → Prop}
    (hm : ∀ prev text, (∀ a ∈ prev, P a) → (∀ a ∈ text, P a)
      → m prev text = m' prev text) (hprev : ∀ a ∈ prev, P a)
    (htext : ∀ a ∈ text, P a) : scan m prev k text = scan m' prev k text := by
  induction text generalizing prev k with
  | nil => simp
  | cons a rest ih =>
    have ha : ∀ c ∈ some a, P c := by
      intro c hc
      cases hc
      exact htext a List.mem_cons_self
    have hrest : ∀ c ∈ rest, P c :=
      fun c hc => htext c (List.mem_cons_of_mem _ hc)
    cases k with
    | succ k => exact ih ha hrest
    | zero =>
      have he := hm prev (a :: rest) hprev htext
      cases h : m prev (a :: rest) with
      | none =>
        rw [scan_kept h, scan_kept (he.symm.trans h), ih ha hrest]
      | some r =>
        obtain ⟨n, b⟩ := r
        rw [scan_found h, scan_found (he.symm.trans h), ih ha hrest]

theorem pieces_congr {P : α → Prop}
    (hm : ∀ prev text, (∀ a ∈ prev, P a) → (∀ a ∈ text, P a)
      → m prev text = m' prev text) (htext : ∀ a ∈ text, P a) :
    pieces m text = pieces m' text :=
  scan_congr hm (by intro a ha; cases ha) htext

/-- A match that no earlier one can reach into is found. -/
theorem mem_scan_of_match {n : Nat} {b : β} (hne : rest ≠ [])
    (hm : m (lastOf prev before) rest = some (n, b)) (hk : k ≤ before.length)
    (hshort : ∀ front back j c, before = front ++ back → back ≠ []
      → m (lastOf prev front) (back ++ rest) = some (j, c)
      → j ≤ back.length) :
    .found (rest.take (max n 1)) b ∈ scan m prev k (before ++ rest) := by
  induction before generalizing prev k with
  | nil =>
    have hzero : k = 0 := Nat.le_zero.1 hk
    subst hzero
    cases rest with
    | nil => exact absurd rfl hne
    | cons a rest =>
      rw [lastOf_nil] at hm
      rw [List.nil_append, scan_found hm]
      exact List.mem_cons_self
  | cons a before ih =>
    have hih : ∀ j, j ≤ before.length
        → .found (rest.take (max n 1)) b
          ∈ scan m (some a) j (before ++ rest) := by
      intro j hj
      refine ih hm hj ?_
      intro front back i c hsplit hb hmi
      exact hshort (a :: front) back i c
        (by rw [hsplit, List.cons_append]) hb hmi
    cases k with
    | succ k =>
      exact hih k (Nat.le_of_succ_le_succ hk)
    | zero =>
      rw [List.cons_append]
      cases h : m prev (a :: (before ++ rest)) with
      | none =>
        rw [scan_kept h]
        exact List.mem_cons_of_mem _ (hih 0 (Nat.zero_le _))
      | some r =>
        obtain ⟨j, c⟩ := r
        have hj : j ≤ (a :: before).length :=
          hshort [] (a :: before) j c rfl (List.cons_ne_nil _ _) h
        rw [scan_found h]
        refine List.mem_cons_of_mem _ (hih (j - 1) ?_)
        rw [List.length_cons] at hj
        omega

-- ======= substitutions

theorem pieces_of_finds_nil (h : finds m text = []) :
    pieces m text = text.map Piece.kept := by
  have hall : ∀ p ∈ pieces m text, ∃ a, p = .kept a := by
    intro p hp
    cases p with
    | kept a => exact ⟨a, rfl⟩
    | found s b =>
      have hmem : b ∈ finds m text := List.mem_filterMap.2 ⟨_, hp, rfl⟩
      rw [h] at hmem
      cases hmem
  have hspan : ∀ (ps : List (Piece α β)), (∀ p ∈ ps, ∃ a, p = .kept a)
      → ps = (ps.flatMap Piece.span).map Piece.kept := by
    intro ps hps
    induction ps with
    | nil => rfl
    | cons p ps ih =>
      obtain ⟨a, ha⟩ := hps p List.mem_cons_self
      rw [List.flatMap_cons, List.map_append,
        ← ih fun q hq => hps q (List.mem_cons_of_mem _ hq), ha]
      rfl
  have hcover := hspan _ hall
  rw [pieces_cover] at hcover
  exact hcover

theorem rewrite_of_finds_nil (h : finds m text = []) :
    rewrite m f text = text := by
  unfold rewrite
  rw [pieces_of_finds_nil h, List.flatMap_map]
  exact List.flatMap_singleton' text

theorem mem_rewrite (h : a ∈ rewrite m f text) :
    a ∈ text ∨ ∃ s b, .found s b ∈ pieces m text ∧ a ∈ f s b := by
  obtain ⟨p, hp, ha⟩ := List.mem_flatMap.1 h
  cases p with
  | kept c =>
    refine Or.inl ?_
    rw [← pieces_cover m text]
    exact List.mem_flatMap.2 ⟨_, hp, ha⟩
  | found s b => exact Or.inr ⟨s, b, hp, ha⟩

theorem rewrite_split {s : List α} {b : β} (h : .found s b ∈ pieces m text) :
    ∃ front back, rewrite m f text = front ++ f s b ++ back := by
  obtain ⟨ps, qs, hpq⟩ := List.append_of_mem h
  refine ⟨ps.flatMap (Piece.render f), qs.flatMap (Piece.render f), ?_⟩
  unfold rewrite
  rw [hpq, List.flatMap_append, List.flatMap_cons, List.append_assoc]
  rfl

/-- Of what only the sequence holds, a substitution leaves a part, in
order. -/
theorem rewrite_filterMap_sublist {γ : Type w} {g : α → Option γ}
    (h : ∀ s b, (f s b).filterMap g = []) (text : List α) :
    ((rewrite m f text).filterMap g).Sublist (text.filterMap g) := by
  have hpieces : ∀ ps : List (Piece α β),
      ((ps.flatMap (Piece.render f)).filterMap g).Sublist
        ((ps.flatMap Piece.span).filterMap g) := by
    intro ps
    induction ps with
    | nil => exact List.Sublist.refl _
    | cons p ps ih =>
      rw [List.flatMap_cons, List.flatMap_cons, List.filterMap_append,
        List.filterMap_append]
      refine List.Sublist.append ?_ ih
      cases p with
      | kept a => exact List.Sublist.refl _
      | found s b =>
        show ((f s b).filterMap g).Sublist (s.filterMap g)
        rw [h s b]
        exact List.nil_sublist _
  have hsub := hpieces (pieces m text)
  rw [pieces_cover] at hsub
  exact hsub

-- ============ counting

variable {p : α → Bool}

/-- Marked elements that no span holds are all there afterwards. -/
theorem countP_le_rewrite
    (h : ∀ s b, .found s b ∈ pieces m text → ∀ a ∈ s, p a = false) :
    text.countP p ≤ (rewrite m f text).countP p := by
  have hpieces : ∀ (ps : List (Piece α β)),
      (∀ s b, .found s b ∈ ps → ∀ a ∈ s, p a = false)
      → (ps.flatMap Piece.span).countP p
        ≤ (ps.flatMap (Piece.render f)).countP p := by
    intro ps hps
    induction ps with
    | nil => exact Nat.le_refl _
    | cons q ps ih =>
      have htail := ih fun s b hs => hps s b (List.mem_cons_of_mem _ hs)
      rw [List.flatMap_cons, List.flatMap_cons, List.countP_append,
        List.countP_append]
      cases q with
      | kept a => exact Nat.add_le_add_left htail _
      | found s b =>
        have hzero : (Piece.found s b).span.countP p = 0 := by
          refine List.countP_eq_zero.2 ?_
          intro a ha
          rw [hps s b List.mem_cons_self a ha]
          exact Bool.false_ne_true
        omega
  have hle := hpieces (pieces m text) h
  rw [pieces_cover] at hle
  exact hle

section

variable (hf : ∀ s b, (f s b).countP p = 0)
include hf

/-- A substitution that puts in no marked element has no more of them
afterwards. -/
theorem countP_scan_le (prev : Option α) (k : Nat) (text : List α) :
    ((scan m prev k text).flatMap (Piece.render f)).countP p
      ≤ text.countP p := by
  induction text generalizing prev k with
  | nil => simp
  | cons a rest ih =>
    have htail : rest.countP p ≤ (a :: rest).countP p := by
      rw [List.countP_cons]
      exact Nat.le_add_right _ _
    cases k with
    | succ k => exact Nat.le_trans (ih _ _) htail
    | zero =>
      cases h : m prev (a :: rest) with
      | none =>
        have hrest := ih (some a) 0
        rw [scan_kept h, List.flatMap_cons, List.countP_append,
          List.countP_cons]
        show [a].countP p + _ ≤ _
        rw [List.countP_singleton]
        omega
      | some r =>
        obtain ⟨n, b⟩ := r
        have hrest := ih (some a) (n - 1)
        rw [scan_found h, List.flatMap_cons, List.countP_append]
        show (f _ b).countP p + _ ≤ _
        rw [hf]
        omega

theorem countP_rewrite_le (text : List α) :
    (rewrite m f text).countP p ≤ text.countP p :=
  countP_scan_le hf none 0 text

/-- A marked element at which a match begins does not survive: the scan
finds the match there, or is inside another one. -/
theorem countP_scan_lt (prev : Option α) (k : Nat) (ha : p a = true)
    (hm : m (lastOf prev before) (a :: rest) ≠ none) :
    ((scan m prev k (before ++ a :: rest)).flatMap
        (Piece.render f)).countP p
      < (before ++ a :: rest).countP p := by
  induction before generalizing prev k with
  | nil =>
    have htail : rest.countP p < (a :: rest).countP p := by
      rw [List.countP_cons_of_pos ha]
      exact Nat.lt_succ_self _
    rw [lastOf_nil] at hm
    rw [List.nil_append]
    cases k with
    | succ k =>
      exact Nat.lt_of_le_of_lt (countP_scan_le hf (some a) k rest) htail
    | zero =>
      obtain ⟨r, hr⟩ := Option.ne_none_iff_exists'.1 hm
      obtain ⟨n, b⟩ := r
      have hrest :=
        countP_scan_le (m := m) (p := p) hf (some a) (n - 1) rest
      rw [scan_found hr, List.flatMap_cons, List.countP_append]
      show (f _ b).countP p + _ < _
      rw [hf]
      omega
  | cons c before ih =>
    have htail : (before ++ a :: rest).countP p
        ≤ (c :: (before ++ a :: rest)).countP p := by
      rw [List.countP_cons]
      exact Nat.le_add_right _ _
    rw [List.cons_append]
    cases k with
    | succ k => exact Nat.lt_of_lt_of_le (ih _ _ hm) htail
    | zero =>
      cases h : m prev (c :: (before ++ a :: rest)) with
      | none =>
        have hrest := ih (some c) 0 hm
        rw [scan_kept h, List.flatMap_cons, List.countP_append,
          List.countP_cons]
        show [c].countP p + _ < _
        rw [List.countP_singleton]
        omega
      | some r =>
        obtain ⟨n, b⟩ := r
        have hrest := ih (some c) (n - 1) hm
        rw [scan_found h, List.flatMap_cons, List.countP_append]
        show (f _ b).countP p + _ < _
        rw [hf]
        omega

theorem countP_rewrite_lt (ha : p a = true)
    (hm : m (lastOf none before) (a :: rest) ≠ none) :
    (rewrite m f (before ++ a :: rest)).countP p
      < (before ++ a :: rest).countP p :=
  countP_scan_lt hf none 0 ha hm

end

end WeaveRuntime.Lib.Rewrite
