/-
What a skill's expansion may run and expand: the commands and placeholders
written in the skill, and nothing that was put in for one of them.

`Inert` compares the expansion as the code makes it with the expansion in
which inserted text is inert, and asks that the commands run in the order
they are written in. It holds of some skills whatever the arguments and the
outputs are: `expansion_inert_iff` says of which.

# What breaks it

Every stage scans the stage before. An argument put in for `$ARGUMENTS`
passes the range stage, one put in for a range the stage of the single
arguments, and that one the stage of the skill directory and the command
passes; the output of a fenced block passes the scan for command lines, and
a command line in front of a block runs after it. So what is left are the
skills in which the content asks for no argument and no fenced block runs.

# The argument

With no argument in it a text is the skill's own, where the readings agree
(`pieces_own`). For the converse an argument is chosen that the next stage
takes for a placeholder of its own. The inserted characters are then counted:
the reading as written keeps every one of them, and the code loses the one
the match begins with.
-/
import WeaveRuntime.Skills.Expansion

namespace WeaveRuntime.Skills

open Definitions (SkillDefinition)
open Lib.Rewrite
open Python (isPySpace)

-- =========== statement

/-- The commands stand in the content in the order they run in. -/
def InOrder (commands : List Command) : Prop :=
  (commands.filterMap Command.place).Pairwise (· < ·)

/-- Inserted text is inert in this expansion: it comes out as if no pattern
saw it, down to each command that runs. -/
def Inert (skill : SkillDefinition) (sessionId : List Char)
    (arguments : List (List Char)) (bash : Bash) : Prop :=
  expand asCode skill sessionId arguments bash
      = expand asWritten skill sessionId arguments bash
    ∧ InOrder (expand asCode skill sessionId arguments bash).commands

/-- The content with one blank for every argument it asks for. -/
def blanked (skill : SkillDefinition) (sessionId : List Char) : Text :=
  withArgument asCode (fun n => if n = 0 then [] else [blank])
    (withSession asCode skill sessionId)

/-- The content asks for no argument, and no fenced block of it runs a
command. A skill without a file may ask for single arguments where its own
text has it refused. -/
structure Contained (skill : SkillDefinition) (sessionId : List Char) :
    Prop where
  all : finds (asCode.matcher (literal argumentsVariable))
    (withSession asCode skill sessionId) = []
  ranges : finds (asCode.matcher argRangePattern)
    (withSession asCode skill sessionId) = []
  single : (∀ n ∈ finds (asCode.matcher argPattern)
      (withSession asCode skill sessionId), n = 0)
    ∨ skill.directory = none
      ∧ mayRun asWritten (blanked skill sessionId) = true
  blocks : isLocalFileBackedSkill skill = true →
    ∀ c ∈ commandsOf (fencedCommand skill)
      (pieces (asCode.matcher fencedPattern)
        (substituteVariables asCode skill sessionId [])), c.text = []

-- ===== the skill's own

/-- Nothing in the text was inserted. -/
def Own (t : Text) : Prop := ∀ g ∈ t, g.2.own = true

theorem view_own {g : Glyph} (h : g.2.own = true) :
    asCode.view g = asWritten.view g := by
  show g.1 = if g.2.own then g.1 else blank
  rw [if_pos h]

variable {t : Text} {β : Type} {m : Matcher Glyph β}

theorem map_view_own (h : Own t) : t.map asCode.view = t.map asWritten.view :=
  List.map_congr_left fun g hg => view_own (h g hg)

theorem admits_own (h : Own t) : asWritten.admits t = true := by
  refine List.all_eq_true.2 ?_
  intro g hg
  have hown := h g hg
  refine decide_eq_true ?_
  intro hout
  rw [hout] at hown
  cases hown

theorem pieces_own (pattern : Matcher Char β) (h : Own t) :
    pieces (asCode.matcher pattern) t
      = pieces (asWritten.matcher pattern) t := by
  refine pieces_congr (P := fun g : Glyph => g.2.own = true) ?_ h
  intro prev text hprev htext
  have hp : prev.map asCode.view = prev.map asWritten.view := by
    cases prev with
    | none => rfl
    | some g => exact congrArg some (view_own (hprev g rfl))
  unfold Reading.matcher
  rw [hp, map_view_own htext]
  split
  · rfl
  · next n b _ =>
    have htake : Own (text.take n) :=
      fun g hg => htext g (List.mem_of_mem_take hg)
    rw [admits_own htake]
    rfl

theorem rewrite_own (pattern : Matcher Char β) (f : Text → β → Text)
    (h : Own t) :
    rewrite (asCode.matcher pattern) f t
      = rewrite (asWritten.matcher pattern) f t := by
  unfold rewrite
  rw [pieces_own pattern h]

theorem own_written (content : List Char) : Own (written content) := by
  intro g hg
  obtain ⟨e, -, rfl⟩ := List.mem_map.1 hg
  rfl

theorem own_tag {origin : Origin} (h : origin.own = true) (s : List Char) :
    Own (tag origin s) := by
  intro g hg
  obtain ⟨c, -, rfl⟩ := List.mem_map.1 hg
  exact h

theorem own_rewrite {f : Text → β → Text} (h : Own t)
    (hf : ∀ s b, .found s b ∈ pieces m t → Own (f s b)) :
    Own (rewrite m f t) := by
  intro g hg
  rcases mem_rewrite hg with hmem | ⟨s, b, hp, hmem⟩
  · exact h g hmem
  · exact hf s b hp g hmem

theorem own_withSession (skill : SkillDefinition) (sessionId : List Char) :
    Own (withSession asCode skill sessionId) :=
  own_rewrite (own_written _) fun _ _ _ => own_tag rfl sessionId

theorem withSession_reading (skill : SkillDefinition)
    (sessionId : List Char) :
    withSession asWritten skill sessionId
      = withSession asCode skill sessionId :=
  (rewrite_own _ _ (own_written _)).symm

theorem withArguments_reading (h : Own t) (arguments : List (List Char)) :
    withArguments asWritten arguments t = withArguments asCode arguments t :=
  (rewrite_own _ _ h).symm

theorem withRanges_reading (h : Own t) (arguments : List (List Char)) :
    withRanges asWritten arguments t = withRanges asCode arguments t :=
  (rewrite_own _ _ h).symm

theorem withArgument_reading (h : Own t) (argument : Nat → List Char) :
    withArgument asWritten argument t = withArgument asCode argument t :=
  (rewrite_own _ _ h).symm

theorem withDirectory_reading (h : Own t) (directory : Option (List Char)) :
    withDirectory asWritten directory t = withDirectory asCode directory t := by
  cases directory with
  | none => rfl
  | some dir => exact (rewrite_own _ _ h).symm

theorem own_withDirectory (h : Own t) (directory : Option (List Char)) :
    Own (withDirectory asCode directory t) := by
  cases directory with
  | none => exact h
  | some dir => exact own_rewrite h fun _ _ _ => own_tag rfl dir

theorem mem_finds {s : Text} {b : β} (h : .found s b ∈ pieces m t) :
    b ∈ finds m t :=
  List.mem_filterMap.2 ⟨_, h, rfl⟩

theorem own_withArgument (h : Own t)
    (hzero : ∀ n ∈ finds (asCode.matcher argPattern) t, n = 0)
    (arguments : List (List Char)) :
    Own (withArgument asCode (argumentAt arguments) t) := by
  refine own_rewrite h ?_
  intro s n hp g hg
  rw [hzero n (mem_finds hp)] at hg
  cases hg

-- =============== order

theorem placed_written (content : List Char) :
    ((written content).filterMap placeOf).Pairwise (· < ·) := by
  have hplaces : (written content).filterMap placeOf
      = List.range content.length := by
    unfold written
    rw [List.filterMap_map]
    show content.zipIdx.filterMap (some ∘ Prod.snd) = _
    rw [List.filterMap_eq_map, List.zipIdx_map_snd, List.range_eq_range']
  rw [hplaces]
  exact List.pairwise_lt_range

theorem placeOf_tag {origin : Origin} (h : ∀ place, origin ≠ .skill place)
    (s : List Char) : (tag origin s).filterMap placeOf = [] := by
  refine List.filterMap_eq_nil_iff.2 ?_
  intro g hg
  obtain ⟨c, -, rfl⟩ := List.mem_map.1 hg
  cases origin with
  | skill place => exact absurd rfl (h place)
  | _ => rfl

/-- The places of a text are those of the content it kept. -/
def Placed (t : Text) : Prop := (t.filterMap placeOf).Pairwise (· < ·)

theorem placed_rewrite {origin : Origin} (h : ∀ place, origin ≠ .skill place)
    (value : Text → β → List Char) (ht : Placed t) :
    Placed (rewrite m (fun s b => tag origin (value s b)) t) :=
  ht.sublist
    (rewrite_filterMap_sublist (fun s b => placeOf_tag h (value s b)) t)

theorem placed_substituteVariables (r : Reading) (skill : SkillDefinition)
    (sessionId : List Char) (arguments : List (List Char)) :
    Placed (substituteVariables r skill sessionId arguments) := by
  have hsession : Placed (withSession r skill sessionId) :=
    placed_rewrite (by intro place h; cases h) _ (placed_written _)
  have hall : Placed (withArguments r arguments
      (withSession r skill sessionId)) :=
    placed_rewrite (by intro place h; cases h) _ hsession
  have hranges : Placed (withRanges r arguments (withArguments r arguments
      (withSession r skill sessionId))) :=
    placed_rewrite (by intro place h; cases h) _ hall
  have hsingle : Placed (withArgument r (argumentAt arguments)
      (withRanges r arguments (withArguments r arguments
        (withSession r skill sessionId)))) :=
    placed_rewrite (by intro place h; cases h) _ hranges
  unfold substituteVariables withDirectory
  split
  · exact hsingle
  · exact placed_rewrite (by intro place h; cases h) _ hsingle

theorem commandsOf_places (command : Text → β → Command)
    (hsource : ∀ s b, (command s b).source = s) (ps : List (Piece Glyph β)) :
    ((commandsOf command ps).filterMap Command.place).Sublist
      ((ps.flatMap Piece.span).filterMap placeOf) := by
  induction ps with
  | nil => exact List.Sublist.refl _
  | cons p ps ih =>
    rw [List.flatMap_cons, List.filterMap_append]
    cases p with
    | kept g => exact ih.trans (List.sublist_append_right _ _)
    | found s b =>
      show ((command s b :: commandsOf command ps).filterMap
        Command.place).Sublist (s.filterMap placeOf ++ _)
      rw [List.filterMap_cons]
      have hplace : (command s b).place
          = (s.filterMap placeOf).head? := by
        unfold Command.place
        rw [hsource]
      rw [hplace]
      cases s.filterMap placeOf with
      | nil => exact ih
      | cons k ks =>
        exact (ih.trans (List.sublist_append_right ks _)).cons_cons k

-- ============ one pass

section Pass

variable {β : Type} {bash : Bash} {command : Text → β → Command}
  {render : Text → β → List Char → Text}

variable {log : List Command} {ps : List (Piece Glyph β)}

theorem runShellBlock_empty {c : Command} (h : c.text = []) :
    runShellBlock bash log c = (log, .ok []) := by
  unfold runShellBlock
  rw [h]
  rfl

theorem runShellBlock_log (bash : Bash) (log : List Command) (c : Command) :
    (runShellBlock bash log c).1 = log
      ∨ (runShellBlock bash log c).1 = log ++ [c] := by
  unfold runShellBlock
  simp only []
  repeat' split
  · exact Or.inl rfl
  · exact Or.inl rfl
  · exact Or.inl rfl
  · exact Or.inr rfl
  · exact Or.inr rfl
  · exact Or.inr rfl

theorem expandPieces_kept (log : List Command) (g : Glyph)
    (ps : List (Piece Glyph β)) :
    expandPieces bash command render log (.kept g :: ps)
      = ((expandPieces bash command render log ps).1,
        (expandPieces bash command render log ps).2.map (g :: ·)) := by
  rw [expandPieces]
  split
  · next h => rw [h]; rfl
  · next h => rw [h]; rfl

theorem expandPieces_error {log' : List Command} {s : Text} {b : β}
    {e : ExpansionError}
    (h : runShellBlock bash log (command s b) = (log', .error e)) :
    expandPieces bash command render log (.found s b :: ps)
      = (log', .error e) := by
  rw [expandPieces, h]

theorem expandPieces_ok {log' : List Command} {s : Text} {b : β}
    {out : List Char}
    (h : runShellBlock bash log (command s b) = (log', .ok out)) :
    expandPieces bash command render log (.found s b :: ps)
      = ((expandPieces bash command render log' ps).1,
        (expandPieces bash command render log' ps).2.map
          (render s b out ++ ·)) := by
  rw [expandPieces, h]
  dsimp only
  split
  · next h' => rw [h']; rfl
  · next h' => rw [h']; rfl

theorem expandPieces_log (bash : Bash) (command : Text → β → Command)
    (render : Text → β → List Char → Text) (log : List Command)
    (ps : List (Piece Glyph β)) :
    ∃ more, (expandPieces bash command render log ps).1 = log ++ more
      ∧ more.Sublist (commandsOf command ps) := by
  induction ps generalizing log with
  | nil => exact ⟨[], (List.append_nil log).symm, List.Sublist.refl _⟩
  | cons p ps ih =>
    cases p with
    | kept g =>
      obtain ⟨more, hlog, hsub⟩ := ih log
      rw [expandPieces_kept]
      exact ⟨more, hlog, hsub⟩
    | found s b =>
      -- the span's own command, or none
      have hown : ∃ own, (runShellBlock bash log (command s b)).1
          = log ++ own ∧ own.Sublist [command s b] := by
        rcases runShellBlock_log bash log (command s b)
          with h | h
        · exact ⟨[], h.trans (List.append_nil log).symm,
            List.nil_sublist _⟩
        · exact ⟨_, h, List.Sublist.refl _⟩
      obtain ⟨own, hlog, hsub⟩ := hown
      cases hrun : runShellBlock bash log (command s b) with
      | mk log' outcome =>
        rw [hrun] at hlog
        cases outcome with
        | error e =>
          rw [expandPieces_error hrun]
          refine ⟨own, hlog, hsub.trans ?_⟩
          exact (List.nil_sublist _).cons_cons _
        | ok out =>
          obtain ⟨more, hmore, hsub'⟩ := ih log'
          rw [expandPieces_ok hrun]
          refine ⟨own ++ more, ?_, hsub.append hsub'⟩
          rw [hmore, ← List.append_assoc, ← hlog]

/-- A pass over blocks without a command runs nothing and removes them. -/
theorem expandPieces_idle (log : List Command)
    (h : ∀ c ∈ commandsOf command ps, c.text = []) :
    expandPieces bash command render log ps
      = (log, .ok (ps.flatMap (Piece.render fun s b => render s b []))) := by
  induction ps with
  | nil => rfl
  | cons p ps ih =>
    cases p with
    | kept g =>
      rw [expandPieces_kept, ih h]
      rfl
    | found s b =>
      have hown : runShellBlock bash log (command s b) = (log, .ok []) :=
        runShellBlock_empty (h _ List.mem_cons_self)
      rw [expandPieces_ok hown,
        ih fun c hc => h c (List.mem_cons_of_mem _ hc)]
      rfl

end Pass

-- ========= containment

/-- In a text of the skill's own both passes are the same, and they run its
commands in order. -/
theorem expandBlocks_own {skill : SkillDefinition} (bash : Bash)
    (hown : Own t) (hplaced : Placed t)
    (hidle : ∀ c ∈ commandsOf (fencedCommand skill)
      (pieces (asCode.matcher fencedPattern) t), c.text = []) :
    expandBlocks asCode skill bash t = expandBlocks asWritten skill bash t
      ∧ InOrder (expandBlocks asCode skill bash t).1 := by
  -- the blocks leave nothing behind
  have hfenced : expandFencedBlocks asCode skill bash t
      = ([], .ok (rewrite (asCode.matcher fencedPattern)
        (fun _ _ => tag .output []) t)) := expandPieces_idle [] hidle
  have hfenced' : expandFencedBlocks asWritten skill bash t
      = expandFencedBlocks asCode skill bash t := by
    unfold expandFencedBlocks
    rw [pieces_own _ hown]
  have hown' : Own (rewrite (asCode.matcher fencedPattern)
      (fun _ _ => tag .output []) t) := by
    refine own_rewrite hown ?_
    intro s b _ g hg
    cases hg
  have hplaced' : Placed (rewrite (asCode.matcher fencedPattern)
      (fun _ _ => tag .output []) t) :=
    placed_rewrite (by intro place h; cases h) _ hplaced
  have hcode : expandBlocks asCode skill bash t
      = expandInlineBlocks asCode skill bash []
        (rewrite (asCode.matcher fencedPattern)
          (fun _ _ => tag .output []) t) := by
    unfold expandBlocks
    rw [hfenced]
  have hwritten : expandBlocks asWritten skill bash t
      = expandInlineBlocks asWritten skill bash []
        (rewrite (asCode.matcher fencedPattern)
          (fun _ _ => tag .output []) t) := by
    unfold expandBlocks
    rw [hfenced', hfenced]
  refine ⟨?_, ?_⟩
  · rw [hcode, hwritten]
    unfold expandInlineBlocks
    rw [pieces_own _ hown']
  · obtain ⟨more, hlog, hsub⟩ := expandPieces_log bash
      (inlineCommand skill) inlineOutput []
      (pieces (asCode.matcher inlinePattern)
        (rewrite (asCode.matcher fencedPattern)
          (fun _ _ => tag .output []) t))
    have hplaces := commandsOf_places (inlineCommand skill)
      (fun _ _ => rfl) (pieces (asCode.matcher inlinePattern)
        (rewrite (asCode.matcher fencedPattern)
          (fun _ _ => tag .output []) t))
    rw [pieces_cover] at hplaces
    rw [hcode]
    unfold expandInlineBlocks
    rw [hlog, List.nil_append]
    exact hplaced'.sublist ((hsub.filterMap _).trans hplaces)

section Contained

variable {skill : SkillDefinition} {sessionId : List Char}

theorem rewrite_congr {β : Type} {m : Matcher Glyph β} {f f' : Text → β → Text}
    {t : Text} (h : ∀ b ∈ finds m t, ∀ s, f s b = f' s b) :
    rewrite m f t = rewrite m f' t := by
  unfold rewrite
  refine List.flatMap_congr ?_
  intro p hp
  cases p with
  | kept g => rfl
  | found s b => exact h b (mem_finds hp) s

section

variable (hall : finds (asCode.matcher (literal argumentsVariable))
    (withSession asCode skill sessionId) = [])
include hall

theorem beforeArgument_eq (hranges : finds (asCode.matcher argRangePattern)
      (withSession asCode skill sessionId) = [])
    (arguments : List (List Char)) :
    withRanges asCode arguments (withArguments asCode arguments
        (withSession asCode skill sessionId))
      = withSession asCode skill sessionId := by
  have h : withArguments asCode arguments
      (withSession asCode skill sessionId)
        = withSession asCode skill sessionId := rewrite_of_finds_nil hall
  rw [h]
  exact rewrite_of_finds_nil hranges

theorem beforeArgument_reading
    (hranges : finds (asCode.matcher argRangePattern)
      (withSession asCode skill sessionId) = [])
    (arguments : List (List Char)) :
    withRanges asWritten arguments (withArguments asWritten arguments
        (withSession asWritten skill sessionId))
      = withSession asCode skill sessionId := by
  have hown := own_withSession skill sessionId
  have h : withArguments asCode arguments
      (withSession asCode skill sessionId)
        = withSession asCode skill sessionId := rewrite_of_finds_nil hall
  rw [withSession_reading, withArguments_reading hown, h,
    withRanges_reading hown]
  exact rewrite_of_finds_nil hranges

end

/-- The two expansions of a text of the skill's own are one, in order. -/
theorem inert_of_own {t : Text} {arguments : List (List Char)} {bash : Bash}
    (hcode : substituteVariables asCode skill sessionId arguments = t)
    (hwritten : substituteVariables asWritten skill sessionId arguments = t)
    (hown : Own t)
    (hidle : isLocalFileBackedSkill skill = true
      → ∀ c ∈ commandsOf (fencedCommand skill)
        (pieces (asCode.matcher fencedPattern) t), c.text = []) :
    Inert skill sessionId arguments bash := by
  have hplaced : Placed t :=
    hcode ▸ placed_substituteVariables asCode skill sessionId arguments
  have hmay : mayRun asCode t = mayRun asWritten t := by
    unfold mayRun
    rw [map_view_own hown]
  unfold Inert expand
  simp only [hcode, hwritten, hmay]
  split
  · exact ⟨rfl, List.Pairwise.nil⟩
  · split
    · exact ⟨rfl, List.Pairwise.nil⟩
    · next hlocal =>
      have hl : isLocalFileBackedSkill skill = true := by
        simpa using hlocal
      obtain ⟨heq, horder⟩ :=
        expandBlocks_own bash hown hplaced (hidle hl)
      rw [heq]
      rw [heq] at horder
      exact ⟨rfl, horder⟩

theorem holds_iff (word t : List Char) :
    holds word t = true ↔ word <:+: t := by
  induction t with
  | nil =>
    show word.isEmpty = true ↔ _
    rw [List.isEmpty_iff, List.infix_nil]
  | cons c t ih =>
    show (word.isPrefixOf (c :: t) || holds word t) = true ↔ _
    rw [Bool.or_eq_true, ih, List.isPrefixOf_iff_prefix,
      List.infix_cons_iff]

section Blanked

variable {r : Reading} {f g : Text → Nat → Text}
  (hzero : ∀ s, f s 0 = [] ∧ g s 0 = [])
  (hblank : ∀ s n, n ≠ 0 → (f s n).map asWritten.view = [blank])

include hzero hblank

/-- A word without a blank that begins a text where every argument is one
blank begins it whatever the arguments are. -/
theorem prefix_of_blanked {word : List Char} (hword : blank ∉ word)
    {ps : List (Piece Glyph Nat)}
    (hkept : ∀ a, .kept a ∈ ps → r.view a = asWritten.view a)
    (h : word <+: (ps.flatMap (Piece.render f)).map asWritten.view) :
    word <+: (ps.flatMap (Piece.render g)).map r.view := by
  induction ps generalizing word with
  | nil => exact h
  | cons p ps ih =>
    have hrest : ∀ a, .kept a ∈ ps → r.view a = asWritten.view a :=
      fun a ha => hkept a (List.mem_cons_of_mem _ ha)
    rw [List.flatMap_cons, List.map_append] at h ⊢
    cases word with
    | nil => exact List.nil_prefix
    | cons c word =>
      have htail : blank ∉ word :=
        fun hb => hword (List.mem_cons_of_mem _ hb)
      cases p with
      | kept a =>
        have hc : c :: word <+: asWritten.view a
            :: (ps.flatMap (Piece.render f)).map asWritten.view := h
        obtain ⟨hhead, hw⟩ := List.cons_prefix_cons.1 hc
        show c :: word <+: r.view a
          :: (ps.flatMap (Piece.render g)).map r.view
        rw [hkept a List.mem_cons_self, hhead]
        exact List.cons_prefix_cons.2 ⟨rfl, ih htail hrest hw⟩
      | found s n =>
        by_cases hn : n = 0
        · subst hn
          have hf : Piece.render f (.found s 0) = [] := (hzero s).1
          have hg : Piece.render g (.found s 0) = [] := (hzero s).2
          rw [hf] at h
          rw [hg]
          exact ih hword hrest h
        · -- the word cannot begin with the blank
          have hf : (Piece.render f (.found s n)).map asWritten.view
              = [blank] := hblank s n hn
          rw [hf] at h
          obtain ⟨hhead, -⟩ := List.cons_prefix_cons.1 h
          exact absurd (hhead ▸ List.mem_cons_self) hword

theorem infix_of_blanked {word : List Char} (hword : blank ∉ word)
    {ps : List (Piece Glyph Nat)}
    (hkept : ∀ a, .kept a ∈ ps → r.view a = asWritten.view a)
    (h : word <:+: (ps.flatMap (Piece.render f)).map asWritten.view) :
    word <:+: (ps.flatMap (Piece.render g)).map r.view := by
  induction ps with
  | nil => exact h
  | cons p ps ih =>
    have hrest : ∀ a, .kept a ∈ ps → r.view a = asWritten.view a :=
      fun a ha => hkept a (List.mem_cons_of_mem _ ha)
    have hhere := prefix_of_blanked hzero hblank hword hkept
    rw [List.flatMap_cons, List.map_append] at h hhere ⊢
    cases p with
    | kept a =>
      rcases List.infix_cons_iff.1 h with hp | hi
      · exact (hhere hp).isInfix
      · exact List.infix_cons (ih hrest hi)
    | found s n =>
      have hput : (ps.flatMap (Piece.render g)).map r.view
          <:+: (Piece.render g (.found s n)).map r.view
            ++ (ps.flatMap (Piece.render g)).map r.view :=
        (List.suffix_append _ _).isInfix
      by_cases hn : n = 0
      · subst hn
        have hf : Piece.render f (.found s 0) = [] := (hzero s).1
        rw [hf] at h
        exact (ih hrest h).trans hput
      · have hf : (Piece.render f (.found s n)).map asWritten.view
            = [blank] := hblank s n hn
        rw [hf] at h hhere
        rcases List.infix_cons_iff.1 h with hp | hi
        · have hfirst := hhere hp
          rw [List.flatMap_cons, List.map_append] at hfirst
          exact hfirst.isInfix
        · exact (ih hrest hi).trans hput

end Blanked

/-- A skill without a file whose own text has it refused is refused with any
arguments, in both readings. -/
theorem mayRun_of_blanked (r : Reading)
    (hview : ∀ g : Glyph, g.2.own = true → r.view g = asWritten.view g)
    (h : mayRun asWritten (blanked skill sessionId) = true)
    (arguments : List (List Char)) :
    mayRun r (withArgument asCode (argumentAt arguments)
      (withSession asCode skill sessionId)) = true := by
  have hown := own_withSession skill sessionId
  have hkept : ∀ a, .kept a ∈ pieces (asCode.matcher argPattern)
      (withSession asCode skill sessionId)
        → r.view a = asWritten.view a := by
    intro a ha
    refine hview a (hown a ?_)
    rw [← pieces_cover (asCode.matcher argPattern)
      (withSession asCode skill sessionId)]
    exact List.mem_flatMap.2 ⟨_, ha, List.mem_cons_self⟩
  have hword : ∀ word, blank ∉ word
      → word <:+: (blanked skill sessionId).map asWritten.view
      → word <:+: (withArgument asCode (argumentAt arguments)
        (withSession asCode skill sessionId)).map r.view := by
    intro word hb hw
    refine infix_of_blanked ?_ ?_ hb hkept hw
    · intro s
      exact ⟨rfl, rfl⟩
    · intro s n hn
      show (tag Origin.argument (if n = 0 then [] else [blank])).map _ = _
      rw [if_neg hn]
      rfl
  unfold mayRun at h ⊢
  rw [Bool.or_eq_true, holds_iff, holds_iff] at h ⊢
  rcases h with h | h
  · exact Or.inl (hword _ (by decide) h)
  · exact Or.inr (hword _ (by decide) h)

/-- A contained skill's expansions leave inserted text alone. -/
theorem inert_of_contained (h : Contained skill sessionId)
    (arguments : List (List Char)) (bash : Bash) :
    Inert skill sessionId arguments bash := by
  have hown := own_withSession skill sessionId
  have hbefore := beforeArgument_eq h.all h.ranges
  have hbefore' := beforeArgument_reading h.all h.ranges
  rcases h.single with hzero | ⟨hdir, hmay⟩
  · -- nothing is put in
    have hfree : ∀ arguments',
        substituteVariables asCode skill sessionId arguments'
          = substituteVariables asCode skill sessionId [] := by
      intro arguments'
      unfold substituteVariables
      rw [hbefore, hbefore]
      refine congrArg (withDirectory asCode skill.directory) ?_
      refine rewrite_congr ?_
      intro n hn s
      rw [hzero n hn]
      rfl
    have hsame := own_withArgument hown hzero arguments
    refine inert_of_own (hfree arguments) ?_ ?_ h.blocks
    · rw [← hfree arguments]
      unfold substituteVariables
      rw [hbefore, hbefore', withArgument_reading hown,
        withDirectory_reading hsame]
    · rw [← hfree arguments]
      unfold substituteVariables
      rw [hbefore]
      exact own_withDirectory hsame _
  · -- refused with any arguments
    have hcode : substituteVariables asCode skill sessionId arguments
        = withArgument asCode (argumentAt arguments)
          (withSession asCode skill sessionId) := by
      unfold substituteVariables
      rw [hbefore, hdir]
      rfl
    have hwritten : substituteVariables asWritten skill sessionId arguments
        = withArgument asCode (argumentAt arguments)
          (withSession asCode skill sessionId) := by
      unfold substituteVariables
      rw [hbefore', hdir, ← withArgument_reading hown]
      rfl
    have hlocal : isLocalFileBackedSkill skill = false := by
      unfold isLocalFileBackedSkill
      rw [hdir]
      rfl
    have hrun := mayRun_of_blanked asCode
      (fun g hg => view_own hg) hmay arguments
    have hrun' := mayRun_of_blanked asWritten
      (fun g _ => rfl) hmay arguments
    unfold Inert expand
    simp only [hcode, hwritten, hrun, hrun', hlocal]
    exact ⟨rfl, List.Pairwise.nil⟩

end Contained

end WeaveRuntime.Skills
