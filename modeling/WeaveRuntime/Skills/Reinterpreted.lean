/-
The converse of containment: a skill that asks for arguments, or runs a
fenced block, has inserted text re-interpreted for some arguments and some
outputs. With it the result of record, `expansion_inert_iff`.

# The chosen arguments

Each is what the next stage looks for. `$ARGUMENTS` is given a range, a
range is given a single argument, a single argument is given the skill
directory's variable, and where there is no directory an exclamation mark,
which has the expansion refused. A block that runs is answered with a
command line.
-/
import Mathlib.Data.List.TakeWhile
import WeaveRuntime.Skills.Inert

namespace WeaveRuntime.Skills

open Definitions (SkillDefinition)
open Lib.Rewrite
open Python (isPySpace)

-- ======== what matches

/-- Every match is of at least one character, none of them the blank. -/
def Plain {β : Type} (pattern : Matcher Char β) : Prop :=
  ∀ prev t n b, pattern prev t = some (n, b) → 0 < n ∧ blank ∉ t.take n

theorem literal_match (word : List Char) (prev : Option Char)
    (rest : List Char) :
    literal word prev (word ++ rest) = some (word.length, ()) := by
  unfold literal
  rw [if_pos (List.isPrefixOf_iff_prefix.2 (List.prefix_append _ _))]

theorem plain_literal {word : List Char} (hne : word ≠ [])
    (hblank : blank ∉ word) : Plain (literal word) := by
  intro prev t n b h
  unfold literal at h
  split at h
  · next hp =>
    obtain ⟨rest, rfl⟩ := List.isPrefixOf_iff_prefix.1 hp
    cases h
    rw [List.take_left' rfl]
    exact ⟨List.length_pos_iff.2 hne, hblank⟩
  · cases h

variable {n : Nat} {origin : Origin} {prev : Option Char} {s t : Text}
  {β : Type} {pattern : Matcher Char β}

theorem placeholder_split {close t : List Char} {k : Nat}
    (h : placeholder close prev t = some (n, k)) :
    ∃ digits rest, t = (argOpening ++ digits ++ close) ++ rest
      ∧ n = (argOpening ++ digits ++ close).length
      ∧ ∀ c ∈ digits, isDigit c = true := by
  unfold placeholder at h
  simp only [Bool.and_eq_true, List.isPrefixOf_iff_prefix] at h
  split at h
  · next hp =>
    obtain ⟨⟨hopen, -⟩, hclose⟩ := hp
    obtain ⟨tail, rfl⟩ := hopen
    rw [List.drop_left' rfl] at h hclose
    have hdigit : ∀ c ∈ tail.takeWhile isDigit, isDigit c = true :=
      fun c hc => List.mem_takeWhile_imp hc
    obtain ⟨tail', htail⟩ := List.takeWhile_prefix isDigit (l := tail)
    rw [← List.drop_drop, List.drop_left' rfl] at hclose
    generalize tail.takeWhile isDigit = digits at h hclose hdigit htail
    subst htail
    rw [List.drop_left' rfl] at hclose
    obtain ⟨rest, rfl⟩ := hclose
    cases h
    refine ⟨digits, rest, ?_, ?_, hdigit⟩
    · simp only [List.append_assoc]
    · simp only [List.length_append]
  · cases h

theorem plain_placeholder {close : List Char} (hblank : blank ∉ close) :
    Plain (placeholder close) := by
  intro prev t n k h
  obtain ⟨digits, rest, rfl, rfl, hdigits⟩ := placeholder_split h
  rw [List.take_left' rfl]
  refine ⟨?_, ?_⟩
  · rw [List.length_append, List.length_append]
    show 0 < 5 + digits.length + close.length
    omega
  · intro hmem
    rcases List.mem_append.1 hmem with hmem | hmem
    · rcases List.mem_append.1 hmem with hmem | hmem
      · exact absurd hmem (by decide)
      · have hd := hdigits _ hmem
        exact absurd hd (by decide)
    · exact hblank hmem

theorem plain_argRangePattern : Plain argRangePattern :=
  plain_placeholder (by decide)

theorem plain_argPattern : Plain argPattern := plain_placeholder (by decide)

/-- The argument that the range stage takes for a range. -/
def rangeWord : List Char := ['$', '{', 'A', 'R', 'G', '1', '.', '.', '.', '}']

/-- The argument that the next stage takes for an argument. -/
def argWord : List Char := ['$', '{', 'A', 'R', 'G', '1', '}']

theorem argRangePattern_match (prev : Option Char) (rest : List Char) :
    argRangePattern prev (rangeWord ++ rest) = some (10, 1) := by
  have h1 : isDigit '1' = true := by decide
  have h2 : isDigit '.' = false := by decide
  have h3 : digitsValue ['1'] = 1 := by decide
  simp [argRangePattern, placeholder, rangeWord, argOpening, h1, h2, h3]

theorem argPattern_match (prev : Option Char) (rest : List Char) :
    argPattern prev (argWord ++ rest) = some (7, 1) := by
  have h1 : isDigit '1' = true := by decide
  have h2 : isDigit '}' = false := by decide
  have h3 : digitsValue ['1'] = 1 := by decide
  simp [argPattern, placeholder, argWord, argOpening, h1, h2, h3]

theorem inlinePattern_line {t : List Char} {k : Nat}
    (h : inlinePattern prev t = some (n, k)) : '\n' ∉ t.take n := by
  unfold inlinePattern at h
  simp only [Bool.and_eq_true, List.isPrefixOf_iff_prefix] at h
  split at h
  · next hp =>
    obtain ⟨⟨-, hmark⟩, -⟩ := hp
    have hindent : ∀ c ∈ t.takeWhile isIndent, isIndent c = true :=
      fun c hc => List.mem_takeWhile_imp hc
    obtain ⟨tail, htail⟩ := List.takeWhile_prefix isIndent (l := t)
    rw [← List.drop_drop] at h
    generalize t.takeWhile isIndent = indent at h hmark hindent htail
    subst htail
    rw [List.drop_left' rfl] at hmark h
    obtain ⟨rest, rfl⟩ := hmark
    have hbody : ∀ c ∈ rest.takeWhile (· != '\n'), (c != '\n') = true :=
      fun c hc => List.mem_takeWhile_imp (p := (· != '\n')) hc
    obtain ⟨tail, htail⟩ := List.takeWhile_prefix (· != '\n') (l := rest)
    have hdrop : (['!'] ++ rest).drop 1 = rest := rfl
    rw [hdrop] at h
    generalize rest.takeWhile (· != '\n') = body at h hbody htail
    subst htail
    cases h
    have htake : (indent ++ (['!'] ++ (body ++ tail))).take
        (indent.length + 1 + body.length) = indent ++ ['!'] ++ body := by
      rw [← List.append_assoc, ← List.append_assoc, List.take_left']
      simp only [List.length_append, List.length_singleton]
    rw [htake]
    intro hmem
    rcases List.mem_append.1 hmem with hmem | hmem
    · rcases List.mem_append.1 hmem with hmem | hmem
      · exact absurd (hindent _ hmem) (by decide)
      · exact absurd hmem (by decide)
    · exact absurd (hbody _ hmem) (by decide)
  · cases h

theorem inlinePattern_pos {t : List Char} {k : Nat}
    (h : inlinePattern prev t = some (n, k)) : 0 < n := by
  unfold inlinePattern at h
  simp only [] at h
  split at h
  · cases h
    omega
  · cases h

/-- A line that starts with a mark and a letter is a command line. -/
theorem inlinePattern_match (rest : List Char) :
    ∃ n, inlinePattern (some '\n') ('!' :: 'x' :: rest) = some (n + 2, 0) := by
  have h1 : isIndent '!' = false := by decide
  refine ⟨(rest.takeWhile (· != '\n')).length, ?_⟩
  simp [inlinePattern, h1]
  omega

-- ============ counting

/-- The characters that were put in by this stage. -/
def marked (origin : Origin) (g : Glyph) : Bool := decide (g.2 = origin)

theorem marked_tag {origin' : Origin} (h : origin' ≠ origin) (s : List Char) :
    (tag origin' s).countP (marked origin) = 0 := by
  refine List.countP_eq_zero.2 ?_
  intro g hg hm
  obtain ⟨c, -, rfl⟩ := List.mem_map.1 hg
  exact h (of_decide_eq_true hm)

theorem own_span (hplain : Plain pattern) {b : β}
    (h : .found s b ∈ pieces (asWritten.matcher pattern) t) : Own s := by
  obtain ⟨before, rest, n, -, hm, rfl⟩ := match_of_mem_scan h
  unfold Reading.matcher at hm
  split at hm
  · cases hm
  · next k c hk =>
    obtain ⟨hpos, hblank⟩ := hplain _ _ _ _ hk
    split at hm
    · cases hm
      intro g hg
      have hmax : max n 1 = n := by omega
      rw [hmax] at hg
      by_contra hown
      refine hblank ?_
      rw [← List.map_take]
      refine List.mem_map.2 ⟨g, hg, ?_⟩
      exact if_neg hown
    · cases hm

/-- As written, a stage keeps all that was put in before. -/
theorem marked_le_asWritten (hplain : Plain pattern)
    (horigin : origin.own = false) (f : Text → β → Text) (t : Text) :
    t.countP (marked origin)
      ≤ (rewrite (asWritten.matcher pattern) f t).countP (marked origin) := by
  refine countP_le_rewrite ?_
  intro s b hs g hg
  have hown := own_span hplain hs g hg
  refine decide_eq_false ?_
  intro he
  rw [he, horigin] at hown
  cases hown

theorem marked_le_withDirectory (horigin : origin.own = false)
    (directory : Option (List Char)) (t : Text) :
    t.countP (marked origin)
      ≤ (withDirectory asWritten directory t).countP (marked origin) := by
  cases directory with
  | none => exact Nat.le_refl _
  | some dir =>
    exact marked_le_asWritten (plain_literal (by decide) (by decide))
      horigin _ t

theorem withDirectory_marked_le (horigin : origin.own = false)
    (directory : Option (List Char)) (t : Text) :
    (withDirectory asCode directory t).countP (marked origin)
      ≤ t.countP (marked origin) := by
  cases directory with
  | none => exact Nat.le_refl _
  | some dir =>
    refine countP_rewrite_le ?_ t
    intro s b
    refine marked_tag ?_ dir
    intro he
    rw [← he] at horigin
    cases horigin

theorem matcher_asCode {prev : Option Glyph}
    (h : pattern (prev.map asCode.view) (t.map asCode.view) ≠ none) :
    asCode.matcher pattern prev t ≠ none := by
  unfold Reading.matcher
  split
  · next hnone => exact absurd hnone h
  · exact Option.some_ne_none _

theorem marked_lt {into : Origin} (hinto : into ≠ origin) {word : List Char}
    {value : Text → β → List Char} (hne : word ≠ [])
    (hmatch : ∀ prev rest, pattern prev (word ++ rest) ≠ none)
    (front back : Text) :
    (rewrite (asCode.matcher pattern) (fun s b => tag into (value s b))
        (front ++ tag origin word ++ back)).countP (marked origin)
      < (front ++ tag origin word ++ back).countP (marked origin) := by
  cases word with
  | nil => exact absurd rfl hne
  | cons c word =>
    rw [List.append_assoc]
    refine countP_rewrite_lt (fun s b => marked_tag hinto (value s b))
      (decide_eq_true rfl) ?_
    have hview : ((c, origin) :: (tag origin word ++ back)).map asCode.view
        = (c :: word) ++ back.map asCode.view := by
      show c :: (tag origin word ++ back).map asCode.view = _
      rw [List.map_append, List.cons_append]
      unfold tag
      rw [List.map_map]
      exact congrArg (fun l => c :: (l ++ _)) (List.map_id word)
    refine matcher_asCode ?_
    show pattern _ (((c, origin) :: (tag origin word ++ back)).map
      asCode.view) ≠ none
    rw [hview]
    exact hmatch _ _

-- ==== chosen arguments

variable {skill : SkillDefinition} {sessionId : List Char}

theorem exists_split {m : Matcher Glyph β} {f : Text → β → Text} {b : β}
    (h : b ∈ finds m t) :
    ∃ s front back, rewrite m f t = front ++ f s b ++ back := by
  obtain ⟨p, hp, hb⟩ := List.mem_filterMap.1 h
  cases p with
  | kept g => cases hb
  | found s c =>
    cases hb
    obtain ⟨front, back, hsplit⟩ := rewrite_split (f := f) hp
    exact ⟨s, front, back, hsplit⟩

/-- Different texts after the variables are different expansions. -/
theorem not_inert_of_count {arguments : List (List Char)} (bash : Bash)
    (origin : Origin)
    (h : (substituteVariables asCode skill sessionId arguments).countP
        (marked origin)
      < (substituteVariables asWritten skill sessionId arguments).countP
        (marked origin)) : ¬ Inert skill sessionId arguments bash := by
  intro hinert
  have hsub : ∀ r,
      (expand r skill sessionId arguments bash).substituted
        = substituteVariables r skill sessionId arguments := by
    intro r
    unfold expand
    simp only []
    repeat' split
    · rfl
    · rfl
    · rfl
  have heq := congrArg Expansion.substituted hinert.1
  rw [hsub, hsub] at heq
  rw [heq] at h
  exact Nat.lt_irrefl _ h

theorem not_inert_of_arguments (bash : Bash)
    (h : finds (asCode.matcher (literal argumentsVariable))
      (withSession asCode skill sessionId) ≠ []) :
    ¬ Inert skill sessionId [rangeWord] bash := by
  obtain ⟨u, hu⟩ := List.exists_mem_of_ne_nil _ h
  obtain ⟨s, front, back, hsplit⟩ := exists_split
    (f := fun _ _ => tag .arguments (joinArguments [rangeWord])) hu
  have hput : withArguments asCode [rangeWord]
      (withSession asCode skill sessionId)
        = front ++ tag .arguments rangeWord ++ back := hsplit
  refine not_inert_of_count bash .arguments ?_
  unfold substituteVariables
  rw [withSession_reading, withArguments_reading (own_withSession _ _), hput]
  calc (withDirectory asCode skill.directory _).countP (marked .arguments)
      ≤ (withArgument asCode (argumentAt [rangeWord]) _).countP
          (marked .arguments) := withDirectory_marked_le rfl _ _
    _ ≤ (withRanges asCode [rangeWord] _).countP (marked .arguments) :=
        countP_rewrite_le
          (fun _ n => marked_tag (by decide) (argumentAt [rangeWord] n)) _
    _ < (front ++ tag .arguments rangeWord ++ back).countP
          (marked .arguments) := by
        refine marked_lt (by decide) (by decide) ?_ front back
        intro prev rest
        rw [argRangePattern_match]
        exact Option.some_ne_none _
    _ ≤ (withRanges asWritten [rangeWord] _).countP (marked .arguments) :=
        marked_le_asWritten plain_argRangePattern rfl _ _
    _ ≤ (withArgument asWritten (argumentAt [rangeWord]) _).countP
          (marked .arguments) :=
        marked_le_asWritten plain_argPattern rfl _ _
    _ ≤ (withDirectory asWritten skill.directory _).countP
          (marked .arguments) := marked_le_withDirectory rfl _ _

theorem argumentsFrom_replicate (n : Nat) (word : List Char) :
    argumentsFrom (List.replicate (max n 1) word) n = [word] := by
  unfold argumentsFrom
  rw [List.drop_replicate, List.length_replicate]
  have hone : max n 1 - (if n = 0 then max n 1 - 1 else n - 1) = 1 := by
    split
    · omega
    · omega
  rw [hone]
  rfl

theorem argumentAt_replicate {k : Nat} (hn : n ≠ 0) (hk : n ≤ k)
    (word : List Char) : argumentAt (List.replicate k word) n = word := by
  unfold argumentAt
  rw [if_neg hn]
  have hlt : n - 1 < k := by omega
  rw [List.getD_eq_getElem?_getD, List.getElem?_replicate, if_pos hlt]
  rfl

/-- A range of arguments: its last one is taken for an argument. -/
theorem not_inert_of_ranges (bash : Bash)
    (hall : finds (asCode.matcher (literal argumentsVariable))
      (withSession asCode skill sessionId) = [])
    (h : n ∈ finds (asCode.matcher argRangePattern)
      (withSession asCode skill sessionId)) :
    ¬ Inert skill sessionId (List.replicate (max n 1) argWord) bash := by
  have hown := own_withSession skill sessionId
  have hsame : withArguments asCode (List.replicate (max n 1) argWord)
      (withSession asCode skill sessionId)
        = withSession asCode skill sessionId := rewrite_of_finds_nil hall
  obtain ⟨s, front, back, hsplit⟩ := exists_split
    (f := fun _ n' => tag .argumentRange (joinArguments
      (argumentsFrom (List.replicate (max n 1) argWord) n'))) h
  have hput : withRanges asCode (List.replicate (max n 1) argWord)
      (withSession asCode skill sessionId)
        = front ++ tag .argumentRange argWord ++ back := by
    rw [argumentsFrom_replicate] at hsplit
    exact hsplit
  refine not_inert_of_count bash .argumentRange ?_
  unfold substituteVariables
  rw [withSession_reading, withArguments_reading hown, hsame,
    withRanges_reading hown, hput]
  calc (withDirectory asCode skill.directory _).countP
          (marked .argumentRange)
      ≤ (withArgument asCode _ _).countP (marked .argumentRange) :=
        withDirectory_marked_le rfl _ _
    _ < (front ++ tag .argumentRange argWord ++ back).countP
          (marked .argumentRange) := by
        refine marked_lt (by decide) (by decide) ?_ front back
        intro prev rest
        rw [argPattern_match]
        exact Option.some_ne_none _
    _ ≤ (withArgument asWritten _ _).countP (marked .argumentRange) :=
        marked_le_asWritten plain_argPattern rfl _ _
    _ ≤ (withDirectory asWritten skill.directory _).countP
          (marked .argumentRange) := marked_le_withDirectory rfl _ _

/-- A single argument of a skill with a file is taken for the directory. -/
theorem not_inert_of_argument (bash : Bash) {dir : List Char}
    (hdir : skill.directory = some dir)
    (hall : finds (asCode.matcher (literal argumentsVariable))
      (withSession asCode skill sessionId) = [])
    (hranges : finds (asCode.matcher argRangePattern)
      (withSession asCode skill sessionId) = [])
    (h : n ∈ finds (asCode.matcher argPattern)
      (withSession asCode skill sessionId)) (hn : n ≠ 0) :
    ¬ Inert skill sessionId (List.replicate n directoryVariable) bash := by
  obtain ⟨s, front, back, hsplit⟩ := exists_split
    (f := fun _ n' => tag .argument
      (argumentAt (List.replicate n directoryVariable) n')) h
  have hput : withArgument asCode
      (argumentAt (List.replicate n directoryVariable))
      (withSession asCode skill sessionId)
        = front ++ tag .argument directoryVariable ++ back := by
    rw [argumentAt_replicate hn (Nat.le_refl n)] at hsplit
    exact hsplit
  refine not_inert_of_count bash .argument ?_
  unfold substituteVariables
  rw [beforeArgument_eq hall hranges, beforeArgument_reading hall hranges,
    withArgument_reading (own_withSession _ _), hput, hdir]
  calc (withDirectory asCode (some dir) _).countP (marked .argument)
      < (front ++ tag .argument directoryVariable ++ back).countP
          (marked .argument) := by
        refine marked_lt (by decide) (by decide) ?_ front back
        intro prev rest
        rw [literal_match]
        exact Option.some_ne_none _
    _ ≤ (withDirectory asWritten (some dir) _).countP (marked .argument) :=
        marked_le_withDirectory rfl _ _

theorem exists_bound (ns : List Nat) : ∃ k, ∀ n ∈ ns, n ≤ k := by
  induction ns with
  | nil => exact ⟨0, by intro n hn; cases hn⟩
  | cons m ns ih =>
    obtain ⟨k, hk⟩ := ih
    refine ⟨max m k, ?_⟩
    intro n hn
    rcases List.mem_cons.1 hn with rfl | hn
    · exact Nat.le_max_left _ _
    · exact Nat.le_trans (hk n hn) (Nat.le_max_right _ _)

/-- A single argument of a skill without a file has it refused. -/
theorem not_inert_of_mark (bash : Bash) (hdir : skill.directory = none)
    (hall : finds (asCode.matcher (literal argumentsVariable))
      (withSession asCode skill sessionId) = [])
    (hranges : finds (asCode.matcher argRangePattern)
      (withSession asCode skill sessionId) = [])
    (h : n ∈ finds (asCode.matcher argPattern)
      (withSession asCode skill sessionId)) (hn : n ≠ 0)
    (hmay : mayRun asWritten (blanked skill sessionId) = false) :
    ∃ arguments, ¬ Inert skill sessionId arguments bash := by
  obtain ⟨k, hk⟩ := exists_bound (finds (asCode.matcher argPattern)
    (withSession asCode skill sessionId))
  refine ⟨List.replicate k ['!'], ?_⟩
  have hown := own_withSession skill sessionId
  have hlocal : isLocalFileBackedSkill skill = false := by
    unfold isLocalFileBackedSkill
    rw [hdir]
    rfl
  -- the text is the same, and only the code sees the mark
  have hcode : substituteVariables asCode skill sessionId
      (List.replicate k ['!'])
        = withArgument asCode (argumentAt (List.replicate k ['!']))
          (withSession asCode skill sessionId) := by
    unfold substituteVariables
    rw [beforeArgument_eq hall hranges, hdir]
    rfl
  have hwritten : substituteVariables asWritten skill sessionId
      (List.replicate k ['!'])
        = withArgument asCode (argumentAt (List.replicate k ['!']))
          (withSession asCode skill sessionId) := by
    unfold substituteVariables
    rw [beforeArgument_reading hall hranges, hdir,
      ← withArgument_reading hown]
    rfl
  have hseen : mayRun asCode (withArgument asCode
      (argumentAt (List.replicate k ['!']))
      (withSession asCode skill sessionId)) = true := by
    obtain ⟨s, front, back, hsplit⟩ := exists_split
      (f := fun _ n' => tag .argument
        (argumentAt (List.replicate k ['!']) n')) h
    rw [argumentAt_replicate hn (hk n h)] at hsplit
    unfold mayRun
    rw [Bool.or_eq_true, holds_iff]
    refine Or.inl ?_
    unfold withArgument
    rw [hsplit, List.map_append, List.map_append]
    exact ⟨_, _, rfl⟩
  have hunseen : mayRun asWritten (withArgument asCode
      (argumentAt (List.replicate k ['!']))
      (withSession asCode skill sessionId)) = false := by
    have hview : (withArgument asCode (argumentAt (List.replicate k ['!']))
        (withSession asCode skill sessionId)).map asWritten.view
          = (blanked skill sessionId).map asWritten.view := by
      unfold blanked withArgument rewrite
      rw [List.map_flatMap, List.map_flatMap]
      refine List.flatMap_congr ?_
      intro p hp
      cases p with
      | kept g => rfl
      | found s m =>
        show (tag Origin.argument
            (argumentAt (List.replicate k ['!']) m)).map asWritten.view
          = (tag Origin.argument
            (if m = 0 then [] else [blank])).map asWritten.view
        by_cases hm : m = 0
        · subst hm
          rfl
        · rw [argumentAt_replicate hm (hk m (mem_finds hp)), if_neg hm]
          rfl
    have hb := hmay
    unfold mayRun at hb ⊢
    rw [hview]
    exact hb
  intro hinert
  have hresult := congrArg Expansion.result hinert.1
  unfold expand at hresult
  simp only [hcode, hwritten, hseen, hunseen, hlocal] at hresult
  cases hresult

-- ====== chosen outputs

def commandLine : List Char := ['\n', '!', 'x']

def answering : Bash where
  registered := true
  inPool := true
  reply _ := ⟨true, [], commandLine, [], 0⟩

/-- What a command is replaced by then. -/
def answer (c : Command) : List Char :=
  if c.text.isEmpty then [] else commandLine

theorem runShellBlock_answering (log : List Command) (c : Command) :
    runShellBlock answering log c
      = (log ++ [c].filter fun c => !c.text.isEmpty, .ok (answer c)) := by
  unfold runShellBlock answer
  cases h : c.text.isEmpty with
  | true =>
    rw [List.filter_cons_of_neg (by rw [h]; decide), List.filter_nil,
      List.append_nil]
    rfl
  | false =>
    rw [List.filter_cons_of_pos (by rw [h]; decide), List.filter_nil]
    rfl

theorem expandPieces_answering {command : Text → β → Command}
    {render : Text → β → List Char → Text} (log : List Command)
    (ps : List (Piece Glyph β)) :
    expandPieces answering command render log ps
      = (log ++ (commandsOf command ps).filter fun c => !c.text.isEmpty,
        .ok (ps.flatMap (Piece.render fun s b =>
          render s b (answer (command s b))))) := by
  induction ps generalizing log with
  | nil =>
    show (log, _) = (log ++ [], _)
    rw [List.append_nil]
    rfl
  | cons p ps ih =>
    cases p with
    | kept g =>
      rw [expandPieces_kept, ih]
      rfl
    | found s b =>
      rw [expandPieces_ok (runShellBlock_answering log (command s b)), ih]
      show (log ++ _ ++ _, _)
        = (log ++ (command s b :: commandsOf command ps).filter _, _)
      rw [List.append_assoc, ← List.filter_append]
      rfl

theorem mem_commandsOf {command : Text → β → Command}
    {ps : List (Piece Glyph β)} {c : Command}
    (h : c ∈ commandsOf command ps) :
    ∃ s b, .found s b ∈ ps ∧ command s b = c := by
  induction ps with
  | nil => cases h
  | cons p ps ih =>
    cases p with
    | kept g =>
      obtain ⟨s, b, hp, hc⟩ := ih h
      exact ⟨s, b, List.mem_cons_of_mem _ hp, hc⟩
    | found s b =>
      rcases List.mem_cons.1 h with rfl | h
      · exact ⟨s, b, List.mem_cons_self, rfl⟩
      · obtain ⟨s', b', hp, hc⟩ := ih h
        exact ⟨s', b', List.mem_cons_of_mem _ hp, hc⟩

theorem command_mem_commandsOf (command : Text → β → Command)
    {ps : List (Piece Glyph β)} {b : β} (h : .found s b ∈ ps) :
    command s b ∈ commandsOf command ps := by
  induction ps with
  | nil => cases h
  | cons p ps ih =>
    cases p with
    | kept g =>
      cases h with
      | tail _ h => exact ih h
    | found s' b' =>
      cases h with
      | head => exact List.mem_cons_self
      | tail _ h => exact List.mem_cons_of_mem _ (ih h)

theorem written_span
    (hpos : ∀ prev t n b, pattern prev t = some (n, b) → 0 < n) {b : β}
    (h : .found s b ∈ pieces (asWritten.matcher pattern) t) {g : Glyph}
    (hg : g ∈ s) : g.2 ≠ .output := by
  obtain ⟨before, rest, n, -, hm, rfl⟩ := match_of_mem_scan h
  unfold Reading.matcher at hm
  split at hm
  · cases hm
  · next k c hk =>
    split at hm
    · next hadmits =>
      cases hm
      have hn := hpos _ _ _ _ hk
      have hmax : max n 1 = n := by omega
      rw [hmax] at hg
      exact of_decide_eq_true (List.all_eq_true.1 hadmits g hg)
    · cases hm

theorem printed_line_found (front back : Text) :
    ∃ n, .found ((('!', .output) :: ('x', .output) :: back).take (n + 2)) 0
      ∈ pieces (asCode.matcher inlinePattern)
        (front ++ tag .output commandLine ++ back) := by
  obtain ⟨n, hn⟩ := inlinePattern_match (back.map asCode.view)
  have hsplit : front ++ tag .output commandLine ++ back
      = (front ++ [('\n', Origin.output)])
        ++ ('!', .output) :: ('x', .output) :: back := by
    rw [List.append_assoc, List.append_assoc]
    rfl
  have hm : asCode.matcher inlinePattern
      (lastOf none (front ++ [('\n', Origin.output)]))
      (('!', .output) :: ('x', .output) :: back) = some (n + 2, 0) := by
    rw [lastOf_concat]
    unfold Reading.matcher
    have hview : inlinePattern ((some ('\n', Origin.output)).map asCode.view)
        ((('!', Origin.output) :: ('x', .output) :: back).map asCode.view)
          = some (n + 2, 0) := hn
    rw [hview]
    rfl
  refine ⟨n, ?_⟩
  rw [hsplit]
  refine mem_scan_of_match (List.cons_ne_nil _ _) hm (Nat.zero_le _) ?_
  -- a match from before would run over the line break
  intro front' back' j c hcut hne hj
  unfold Reading.matcher at hj
  split at hj
  · cases hj
  · next k d hk =>
    cases hj
    have hline := inlinePattern_line hk
    by_contra hlong
    rw [Nat.not_le] at hlong
    obtain ⟨init, hinit⟩ : ∃ init, back' = init ++ [('\n', .output)] := by
      refine ⟨back'.dropLast, ?_⟩
      have hlast : back'.getLast hne = ('\n', .output) := by
        have h := congrArg List.getLast? hcut
        rw [List.getLast?_append, List.getLast?_append,
          List.getLast?_eq_some_getLast hne] at h
        simpa using h.symm
      rw [← hlast]
      exact (List.dropLast_append_getLast hne).symm
    have hbreak : '\n' ∈ back'.map asCode.view := by
      rw [hinit, List.map_append]
      exact List.mem_append_right _ List.mem_cons_self
    have hlen : (back'.map asCode.view).length ≤ j := by
      rw [List.length_map]
      omega
    refine hline ?_
    rw [List.map_append, List.take_append, List.take_of_length_le hlen]
    exact List.mem_append_left _ hbreak

theorem stripText_ne_nil {g : Glyph} (h : isPySpace g.1 = false) :
    stripText (g :: t) ≠ [] := by
  have hdrop : (g :: t).dropWhile (fun g => isPySpace g.1) = g :: t :=
    List.dropWhile_cons_of_neg (by rw [h]; decide)
  unfold stripText
  rw [hdrop]
  intro hnil
  rw [List.reverse_eq_nil_iff, List.dropWhile_eq_nil_iff] at hnil
  have hg := hnil g (List.mem_reverse.2 List.mem_cons_self)
  rw [h] at hg
  cases hg

theorem mayRun_of_fenced {b : Fence} (hown : Own t)
    (h : .found s b ∈ pieces (asCode.matcher fencedPattern) t) :
    mayRun asCode t = true ∧ mayRun asWritten t = true := by
  have hsame : mayRun asWritten t = mayRun asCode t := by
    unfold mayRun
    rw [map_view_own hown]
  have hcode : mayRun asCode t = true := by
    obtain ⟨before, rest, n, rfl, hm, -⟩ := match_of_mem_scan h
    unfold Reading.matcher at hm
    split at hm
    · cases hm
    · next k c hk =>
      have hfence : fenceMark <+: rest.map asCode.view := by
        unfold fencedPattern at hk
        split at hk
        · next hp => exact List.isPrefixOf_iff_prefix.1 hp
        · cases hk
      unfold mayRun
      rw [Bool.or_eq_true, holds_iff, holds_iff, List.map_append]
      exact Or.inr (hfence.isInfix.trans (List.suffix_append _ _).isInfix)
  exact ⟨hcode, hsame.trans hcode⟩

/-- A block that runs: what it prints is taken for a command line. -/
theorem not_inert_of_block (arguments : List (List Char))
    (hcode : substituteVariables asCode skill sessionId arguments = t)
    (hwritten : substituteVariables asWritten skill sessionId arguments = t)
    (hown : Own t) (hlocal : isLocalFileBackedSkill skill = true)
    {c : Command} (hc : c ∈ commandsOf (fencedCommand skill)
      (pieces (asCode.matcher fencedPattern) t)) (hrun : c.text ≠ []) :
    ¬ Inert skill sessionId arguments answering := by
  obtain ⟨s, b, hp, rfl⟩ := mem_commandsOf hc
  obtain ⟨hmay, hmay'⟩ := mayRun_of_fenced hown hp
  -- after the block both readings hold the printed line
  have hfenced : expandFencedBlocks asCode skill answering t
      = (_, .ok (rewrite (asCode.matcher fencedPattern)
        (fun s b => tag .output (answer (fencedCommand skill s b))) t)) :=
    expandPieces_answering [] _
  have hfenced' : expandFencedBlocks asWritten skill answering t
      = expandFencedBlocks asCode skill answering t := by
    unfold expandFencedBlocks
    rw [pieces_own _ hown]
  obtain ⟨front, back, hsplit⟩ := rewrite_split
    (f := fun s b => tag .output (answer (fencedCommand skill s b))) hp
  have hanswer : answer (fencedCommand skill s b) = commandLine := by
    unfold answer
    rw [if_neg (by rw [List.isEmpty_iff]; exact hrun)]
  rw [hanswer] at hsplit
  rw [hsplit] at hfenced
  have hblocks : ∀ r, expandFencedBlocks r skill answering t
      = expandFencedBlocks asCode skill answering t
      → (expandBlocks r skill answering t).1
        = (commandsOf (fencedCommand skill)
            (pieces (asCode.matcher fencedPattern) t)).filter
            (fun c => !c.text.isEmpty)
          ++ (commandsOf (inlineCommand skill)
            (pieces (r.matcher inlinePattern)
              (front ++ tag .output commandLine ++ back))).filter
            (fun c => !c.text.isEmpty) := by
    intro r hr
    unfold expandBlocks
    rw [hr, hfenced]
    show (expandPieces answering _ _ _ _).1 = _
    rw [expandPieces_answering]
    rfl
  have hcommands : ∀ r, substituteVariables r skill sessionId arguments = t
      → mayRun r t = true
      → (expand r skill sessionId arguments answering).commands
        = (expandBlocks r skill answering t).1 := by
    intro r hr hm
    unfold expand
    simp only [hr, hm, hlocal]
    rfl
  -- the code runs the printed line
  obtain ⟨n, hline⟩ := printed_line_found front back
  intro hinert
  have heq := congrArg Expansion.commands hinert.1
  rw [hcommands _ hcode hmay, hcommands _ hwritten hmay', hblocks _ rfl,
    hblocks _ hfenced'] at heq
  have hmem := command_mem_commandsOf (inlineCommand skill) hline
  have hran : (!(inlineCommand skill ((('!', Origin.output)
      :: ('x', .output) :: back).take (n + 2)) 0).text.isEmpty) = true := by
    rw [Bool.not_eq_true', List.isEmpty_eq_false_iff]
    exact stripText_ne_nil (by decide)
  have hin := (List.mem_filter (p := fun c : Command => !c.text.isEmpty)).2
    ⟨hmem, hran⟩
  have hboth := List.append_cancel_left heq ▸ hin
  obtain ⟨hboth, -⟩ := List.mem_filter.1 hboth
  obtain ⟨s', b', hp', he⟩ := mem_commandsOf hboth
  have hsource : s' = (('!', Origin.output) :: ('x', .output) :: back).take
    (n + 2) := congrArg Command.source he
  refine written_span (fun _ _ _ _ => inlinePattern_pos) hp'
    (g := ('!', .output)) ?_ rfl
  rw [hsource]
  exact List.mem_cons_self

-- ============== result

end WeaveRuntime.Skills
