/-
Prompt expansion of a skill: variables are filled in, then fenced command
blocks and then command lines are run and replaced by what they print.

The expansion is a pipeline of textual substitutions over one string, and
each stage scans the string the stage before it made. The texts here are
the same strings with every character's origin beside it: the skill's own
content, one of the substituted variables, or the output of a command.

# Two readings

The code does not know the origins: `asCode` shows a pattern every character
as it is. `asWritten` is the reading the pipeline stands for, with inserted
text inert: a pattern sees a character of an argument or of an output only
as some character it has no use for, and a match that holds a character of
an output is none of the skill's own commands. The stages are functions of
the reading, so the two expansions differ in nothing else.

# What commands answer

A command's result is a function of all commands run so far, itself
included: any behaviour of the `bash` tool.
-/
import Mathlib.Data.List.Basic
import WeaveRuntime.Definitions
import WeaveRuntime.Lib.Rewrite
import WeaveRuntime.Python.Value

namespace WeaveRuntime.Skills

open Definitions (SkillDefinition SkillShell)
open Lib.Rewrite
open Python (isPySpace)

-- =============== texts

/-- Where a character of a text comes from. `skill` is the skill's content,
at this place of it. -/
inductive Origin where
  | skill (place : Nat)
  | session
  | directory
  | arguments
  | argumentRange
  | argument
  | output
  deriving DecidableEq, Repr

/-- Neither an argument's nor an output's. -/
def Origin.own : Origin → Bool
  | .skill _ => true
  | .session => true
  | .directory => true
  | .arguments => false
  | .argumentRange => false
  | .argument => false
  | .output => false

abbrev Glyph := Char × Origin

abbrev Text := List Glyph

/-- Inserted text. -/
def tag (origin : Origin) (s : List Char) : Text := s.map fun c => (c, origin)

/-- The skill's content, each character with its place. -/
def written (content : List Char) : Text :=
  content.zipIdx.map fun e => (e.1, .skill e.2)

/-- The place in the skill's content of a character of it. -/
def placeOf (g : Glyph) : Option Nat :=
  match g.2 with
  | .skill place => some place
  | _ => none

-- ============ readings

/-- What a pattern sees of a text, and the matches that count. -/
structure Reading where
  view : Glyph → Char
  admits : Text → Bool

/-- The code's: a text is its characters. -/
def asCode : Reading where
  view := Prod.fst
  admits _ := true

/-- What stands for an inserted character: no pattern asks for it. -/
def blank : Char := '\uFFFD'

/-- With inserted text inert. -/
def asWritten : Reading where
  view g := if g.2.own then g.1 else blank
  admits span := span.all fun g => g.2 ≠ .output

def Reading.matcher {β : Type} (r : Reading) (pattern : Matcher Char β) :
    Matcher Glyph β := fun prev text =>
  match pattern (prev.map r.view) (text.map r.view) with
  | none => none
  | some (n, b) => if r.admits (text.take n) then some (n, b) else none

-- ============ patterns

/-- A text that is looked for as it is. -/
def literal (word : List Char) : Matcher Char Unit := fun _ text =>
  if word.isPrefixOf text then some (word.length, ()) else none

/-- The zeros of the blocks of ten decimal digits `\d` stands for. -/
def digitZeros : List Nat :=
  [0x30, 0x660, 0x6f0, 0x7c0, 0x966, 0x9e6, 0xa66, 0xae6, 0xb66, 0xbe6,
   0xc66, 0xce6, 0xd66, 0xde6, 0xe50, 0xed0, 0xf20, 0x1040, 0x1090, 0x17e0,
   0x1810, 0x1946, 0x19d0, 0x1a80, 0x1a90, 0x1b50, 0x1bb0, 0x1c40, 0x1c50,
   0xa620, 0xa8d0, 0xa900, 0xa9d0, 0xa9f0, 0xaa50, 0xabf0, 0xff10, 0x104a0,
   0x10d30, 0x11066, 0x110f0, 0x11136, 0x111d0, 0x112f0, 0x11450, 0x114d0,
   0x11650, 0x116c0, 0x11730, 0x118e0, 0x11950, 0x11c50, 0x11d50, 0x11da0,
   0x16a60, 0x16ac0, 0x16b50, 0x1d7ce, 0x1d7d8, 0x1d7e2, 0x1d7ec, 0x1d7f6,
   0x1e140, 0x1e2f0, 0x1e950, 0x1fbf0]

def digitValue? (c : Char) : Option Nat :=
  digitZeros.findSome? fun z =>
    if z ≤ c.toNat ∧ c.toNat < z + 10 then some (c.toNat - z) else none

def isDigit (c : Char) : Bool := (digitValue? c).isSome

/-- `int(digits)`. -/
def digitsValue (digits : List Char) : Nat :=
  digits.foldl (fun n c => 10 * n + (digitValue? c).getD 0) 0

def argOpening : List Char := ['$', '{', 'A', 'R', 'G']

/-- `\$\{ARG(\d+)` and what closes it. -/
def placeholder (close : List Char) : Matcher Char Nat := fun _ text =>
  let digits := (text.drop argOpening.length).takeWhile isDigit
  let rest := text.drop (argOpening.length + digits.length)
  if argOpening.isPrefixOf text && !digits.isEmpty && close.isPrefixOf rest
  then
    some (argOpening.length + digits.length + close.length,
      digitsValue digits)
  else none

def argRangePattern : Matcher Char Nat := placeholder ['.', '.', '.', '}']

def argPattern : Matcher Char Nat := placeholder ['}']

def fenceMark : List Char := ['`', '`', '`']

inductive FenceLanguage where
  | bash
  | sh
  | shell
  | powershell
  | pwsh
  deriving DecidableEq, Repr

def FenceLanguage.word : FenceLanguage → List Char
  | .bash => ['b', 'a', 's', 'h']
  | .sh => ['s', 'h']
  | .shell => ['s', 'h', 'e', 'l', 'l']
  | .powershell => ['p', 'o', 'w', 'e', 'r', 's', 'h', 'e', 'l', 'l']
  | .pwsh => ['p', 'w', 's', 'h']

def FenceLanguage.all : List FenceLanguage :=
  [.bash, .sh, .shell, .powershell, .pwsh]

def languageLine (text : List Char) : Option (Option FenceLanguage × Nat) :=
  match FenceLanguage.all.find? fun l => (l.word ++ ['\n']).isPrefixOf text with
  | some l => some (some l, l.word.length + 1)
  | none => if ['\n'].isPrefixOf text then some (none, 1) else none

/-- The length of the shortest beginning that the closing mark follows. -/
def bodyLength (close : List Char) : List Char → Option Nat
  | [] => none
  | c :: rest =>
    if close.isPrefixOf (c :: rest) then some 0
    else (bodyLength close rest).map (· + 1)

/-- A fenced block: the language, and where in it the body is. -/
structure Fence where
  lang : Option FenceLanguage
  start : Nat
  length : Nat
  deriving DecidableEq, Repr

def fencedPattern : Matcher Char Fence := fun _ text =>
  if fenceMark.isPrefixOf text then
    match languageLine (text.drop 3) with
    | none => none
    | some (lang, n) =>
      match bodyLength fenceMark (text.drop (3 + n)) with
      | none => none
      | some k => some (3 + n + k + 3, ⟨lang, 3 + n, k⟩)
  else none

def isIndent (c : Char) : Bool := c == ' ' || c == '\t'

/-- A command line: the match says how far it is indented. -/
def inlinePattern : Matcher Char Nat := fun prev text =>
  let indent := (text.takeWhile isIndent).length
  let body := (text.drop (indent + 1)).takeWhile (· != '\n')
  if (prev == none || prev == some '\n')
      && ['!'].isPrefixOf (text.drop indent) && !body.isEmpty then
    some (indent + 1 + body.length, indent)
  else none

-- ============ commands

def isLocalFileBackedSkill (skill : SkillDefinition) : Bool :=
  skill.directory.isSome
    && (skill.source == .user || skill.source == .project)

def shellFromLanguage : FenceLanguage → SkillShell
  | .bash => .bash
  | .sh => .bash
  | .shell => .bash
  | .powershell => .powershell
  | .pwsh => .powershell

/-- A command: the span it was read from, and the text that is run. -/
structure Command where
  source : Text
  text : Text
  shell : SkillShell
  deriving DecidableEq, Repr

/-- Where in the skill's content a command stands. -/
def Command.place (c : Command) : Option Nat :=
  (c.source.filterMap placeOf).head?

/-- `body.strip()`. -/
def stripText (t : Text) : Text :=
  ((t.dropWhile fun g => isPySpace g.1).reverse.dropWhile
    fun g => isPySpace g.1).reverse

def fencedCommand (skill : SkillDefinition) (span : Text) (fence : Fence) :
    Command where
  source := span
  text := stripText ((span.drop fence.start).take fence.length)
  shell := ((fence.lang.map shellFromLanguage).or skill.shell).getD .bash

def inlineCommand (skill : SkillDefinition) (span : Text) (indent : Nat) :
    Command where
  source := span
  text := stripText (span.drop (indent + 1))
  shell := skill.shell.getD .bash

/-- What the tool call gives back: an error text that is empty counts as
none. -/
structure Reply where
  success : Bool
  error : List Char
  stdout : List Char
  stderr : List Char
  exitCode : Int

/-- The `bash` tool as a skill finds it. -/
structure Bash where
  registered : Bool
  inPool : Bool
  reply : List Command → Reply

inductive ExpansionError where
  | notLocal
  | noBash
  | notInPolicy
  | failed (message : List Char)
  deriving DecidableEq, Repr

def expansionFailed : List Char := "Skill shell expansion failed".toList

/-- The text of the error. -/
def ExpansionError.message : ExpansionError → List Char
  | .notLocal =>
    ("Skill shell expansion is only supported for local "
      ++ "file-backed skills").toList
  | .noBash => "Skill shell expansion requires the bash tool".toList
  | .notInPolicy =>
    ("Skill shell expansion is not available in the current "
      ++ "execution policy").toList
  | .failed message => message

def textOr (left right : List Char) : List Char :=
  if left.isEmpty then right else left

def rstripNewlines (s : List Char) : List Char :=
  (s.reverse.dropWhile (· == '\n')).reverse

def runShellBlock (bash : Bash) (log : List Command) (command : Command) :
    List Command × Except ExpansionError (List Char) :=
  if command.text.isEmpty then (log, .ok [])
  else if !bash.registered then (log, .error .noBash)
  else if !bash.inPool then (log, .error .notInPolicy)
  else
    let log' := log ++ [command]
    let result := bash.reply log'
    if !result.success then
      (log', .error (.failed (textOr result.error expansionFailed)))
    else if result.exitCode ≠ 0 then
      (log', .error (.failed
        (textOr result.stderr (textOr result.stdout expansionFailed))))
    else (log', .ok (rstripNewlines result.stdout))

/-- The commands a pass may run, in order. -/
def commandsOf {β : Type} (command : Text → β → Command) :
    List (Piece Glyph β) → List Command
  | [] => []
  | .kept _ :: rest => commandsOf command rest
  | .found span b :: rest => command span b :: commandsOf command rest

/-- One pass over the pieces of a text: each span's command is run and
replaced. -/
def expandPieces {β : Type} (bash : Bash) (command : Text → β → Command)
    (render : Text → β → List Char → Text) :
    List Command → List (Piece Glyph β)
      → List Command × Except ExpansionError Text
  | log, [] => (log, .ok [])
  | log, .kept g :: rest =>
    match expandPieces bash command render log rest with
    | (log', .error e) => (log', .error e)
    | (log', .ok t) => (log', .ok (g :: t))
  | log, .found span b :: rest =>
    match runShellBlock bash log (command span b) with
    | (log', .error e) => (log', .error e)
    | (log', .ok out) =>
      match expandPieces bash command render log' rest with
      | (log'', .error e) => (log'', .error e)
      | (log'', .ok t) => (log'', .ok (render span b out ++ t))

-- =========== expansion

def isLineBreak (c : Char) : Bool :=
  let n := c.toNat
  (10 ≤ n && n ≤ 13) || (28 ≤ n && n ≤ 30) || n == 0x85 || n == 0x2028
    || n == 0x2029

/-- `text.splitlines()`, with the line read so far in reverse. -/
def splitlinesAfter : List Char → List Char → List (List Char)
  | line, [] => if line.isEmpty then [] else [line.reverse]
  | line, '\r' :: '\n' :: rest => line.reverse :: splitlinesAfter [] rest
  | line, c :: rest =>
    if isLineBreak c then line.reverse :: splitlinesAfter [] rest
    else splitlinesAfter (c :: line) rest

def splitlines (s : List Char) : List (List Char) := splitlinesAfter [] s

/-- A block is replaced by what it printed. -/
def fencedOutput (_span : Text) (_fence : Fence) (out : List Char) : Text :=
  tag .output out

/-- A line is replaced by what it printed, each line of it indented. -/
def inlineOutput (span : Text) (indent : Nat) (out : List Char) : Text :=
  [('\n', .output)].intercalate
    ((splitlines out).map fun line => span.take indent ++ tag .output line)

def sessionVariable : List Char :=
  ['$', '{', 'C', 'L', 'A', 'U', 'D', 'E', '_', 'S', 'E', 'S', 'S', 'I', 'O',
   'N', '_', 'I', 'D', '}']

def argumentsVariable : List Char :=
  ['$', 'A', 'R', 'G', 'U', 'M', 'E', 'N', 'T', 'S']

def directoryVariable : List Char :=
  ['$', '{', 'C', 'L', 'A', 'U', 'D', 'E', '_', 'S', 'K', 'I', 'L', 'L', '_',
   'D', 'I', 'R', '}']

def joinArguments (arguments : List (List Char)) : List Char :=
  [' '].intercalate arguments

/-- `arguments[n - 1:]`: for zero the slice starts at the last one. -/
def argumentsFrom (arguments : List (List Char)) (n : Nat) :
    List (List Char) :=
  arguments.drop (if n = 0 then arguments.length - 1 else n - 1)

def argumentAt (arguments : List (List Char)) (index : Nat) : List Char :=
  if index = 0 then [] else arguments.getD (index - 1) []

variable (r : Reading)

def replaceWord (word : List Char) (origin : Origin) (value : List Char)
    (t : Text) : Text :=
  rewrite (r.matcher (literal word)) (fun _ _ => tag origin value) t

def withSession (skill : SkillDefinition) (sessionId : List Char) : Text :=
  replaceWord r sessionVariable .session sessionId (written skill.content)

def withArguments (arguments : List (List Char)) (t : Text) : Text :=
  replaceWord r argumentsVariable .arguments (joinArguments arguments) t

def withRanges (arguments : List (List Char)) (t : Text) : Text :=
  rewrite (r.matcher argRangePattern)
    (fun _ n =>
      tag .argumentRange (joinArguments (argumentsFrom arguments n))) t

def withArgument (argument : Nat → List Char) (t : Text) : Text :=
  rewrite (r.matcher argPattern) (fun _ n => tag .argument (argument n)) t

def withDirectory (directory : Option (List Char)) (t : Text) : Text :=
  match directory with
  | none => t
  | some dir => replaceWord r directoryVariable .directory dir t

def substituteVariables (skill : SkillDefinition) (sessionId : List Char)
    (arguments : List (List Char)) : Text :=
  withDirectory r skill.directory
    (withArgument r (argumentAt arguments)
      (withRanges r arguments
        (withArguments r arguments (withSession r skill sessionId))))

/-- The text holds this one. -/
def holds (word : List Char) : List Char → Bool
  | [] => word.isEmpty
  | c :: rest => word.isPrefixOf (c :: rest) || holds word rest

/-- The text may hold a command. -/
def mayRun (t : Text) : Bool :=
  holds ['!'] (t.map r.view) || holds fenceMark (t.map r.view)

/-- An expansion: the text after the variables, the commands that were run,
and what comes out. -/
structure Expansion where
  substituted : Text
  commands : List Command
  result : Except ExpansionError Text

def expandFencedBlocks (skill : SkillDefinition) (bash : Bash) (t : Text) :
    List Command × Except ExpansionError Text :=
  expandPieces bash (fencedCommand skill) fencedOutput []
    (pieces (r.matcher fencedPattern) t)

def expandInlineBlocks (skill : SkillDefinition) (bash : Bash)
    (log : List Command) (t : Text) :
    List Command × Except ExpansionError Text :=
  expandPieces bash (inlineCommand skill) inlineOutput log
    (pieces (r.matcher inlinePattern) t)

/-- Both passes. -/
def expandBlocks (skill : SkillDefinition) (bash : Bash) (t : Text) :
    List Command × Except ExpansionError Text :=
  match expandFencedBlocks r skill bash t with
  | (log, .error e) => (log, .error e)
  | (log, .ok t') => expandInlineBlocks r skill bash log t'

def expand (skill : SkillDefinition) (sessionId : List Char)
    (arguments : List (List Char)) (bash : Bash) : Expansion :=
  let t := substituteVariables r skill sessionId arguments
  if !mayRun r t then ⟨t, [], .ok t⟩
  else if !isLocalFileBackedSkill skill then ⟨t, [], .error .notLocal⟩
  else
    let run := expandBlocks r skill bash t
    ⟨t, run.1, run.2⟩

end WeaveRuntime.Skills
