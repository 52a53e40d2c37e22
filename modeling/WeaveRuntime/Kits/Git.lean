/-
The argument vectors of the git tools, and how git reads them.

The builders place what the model chose, refs and a path, among literal
options. Git tells an option by its dash and a path by where it stands,
behind `--`; there a colon begins magic and `*`, `?` and `[` are
wildcards. A vector is read as it was meant exactly when no ref begins
with a dash and the path is none of these.
-/
import WeaveRuntime.Lib.PurePath
import WeaveRuntime.Python.Value
import WeaveRuntime.Lib.Raise

namespace WeaveRuntime.Kits

open Lib Python

-- ==== model: the builders

/-- The input of one of the tools, as its schema has it, up to the path. -/
inductive GitCall where
  | status (includeUntracked : Bool)
  | diff (cached : Bool) (contextLines : Option Int)
    (baseRef headRef : Option String)
  | history (limit : Option Int) (ref : Option String)

inductive Raised where
  | valueError
deriving DecidableEq

/-- `_git_pathspec`. -/
def gitPathspec (repoRoot startPath : PurePath) :
    Except Raised (Option String) :=
  if startPath = repoRoot then .ok none
  else (orRaise (startPath.relativeTo repoRoot) .valueError).map
    fun rest => some rest.text

/-- `str(tool_input.get(key) or "").strip()`. -/
def refText (ref : Option String) : String := pyStrip (ref.getD "")

/-- `args.extend(["--", target])`, where there is one. -/
def extendTarget (args : List String) (target : Option String) :
    List String :=
  match target with
  | some path => args ++ ["--", path]
  | none => args

def gitStatusArgs (includeUntracked : Bool) (target : Option String) :
    List String :=
  let args := ["status", "--short", "--branch"]
  extendTarget
    (if includeUntracked then args else args ++ ["--untracked-files=no"])
    target

def gitDiffArgs (cached : Bool) (contextLines : Option Int)
    (baseRef headRef target : Option String) : List String :=
  let args := if cached then ["diff", "--cached"] else ["diff"]
  let args := match contextLines with
    | some lines => args ++ ["--unified=" ++ toString lines]
    | none => args
  let base := refText baseRef
  let head := refText headRef
  let args :=
    if base ≠ "" ∧ head ≠ "" then args ++ [base, head]
    else if base ≠ "" then args ++ [base]
    else if head ≠ "" then args ++ [head]
    else args
  extendTarget args target

/-- `int(tool_input.get("limit") or 10)`. -/
def historyLimit (limit : Option Int) : Int :=
  if limit.getD 0 = 0 then 10 else limit.getD 0

def gitHistoryArgs (limit : Option Int) (ref target : Option String) :
    List String :=
  let args := ["log", "--decorate", "--oneline",
    "-n" ++ toString (historyLimit limit)]
  let ref := refText ref
  extendTarget (if ref ≠ "" then args ++ [ref] else args) target

def GitCall.args (call : GitCall) (target : Option String) : List String :=
  match call with
  | .status includeUntracked => gitStatusArgs includeUntracked target
  | .diff cached contextLines baseRef headRef =>
    gitDiffArgs cached contextLines baseRef headRef target
  | .history limit ref => gitHistoryArgs limit ref target

/-- The arguments of `_run_git_command`. -/
def GitCall.argv (call : GitCall) (repoRoot startPath : PurePath) :
    Except Raised (List String) :=
  (gitPathspec repoRoot startPath).map call.args

-- ==== how git reads them

inductive Pathspec where
  | literal (path : String)
  | glob (pattern : String)
  | magic (text : String)
deriving DecidableEq

structure GitReading where
  subcommand : String
  options : List String
  revisions : List String
  pathspecs : List Pathspec
deriving DecidableEq

def isOption (arg : String) : Bool := arg.toList.head? = some '-'

def readPathspec (arg : String) : Pathspec :=
  if arg.toList.head? = some ':' then .magic arg
  else if arg.toList.any (· ∈ ['*', '?', '[']) then .glob arg
  else .literal arg

/-- What stands before `--` is an option or a revision, what stands behind
it a pathspec. -/
def readArgs : List String → Option GitReading
  | [] => none
  | subcommand :: rest =>
    let before := rest.takeWhile (· ≠ "--")
    some
      { subcommand := subcommand
        options := before.filter isOption
        revisions := before.filter (!isOption ·)
        pathspecs := ((rest.dropWhile (· ≠ "--")).drop 1).map readPathspec }

-- ======= what is meant

/-- The path below the root; the root itself narrows nothing. -/
def narrowing (repoRoot startPath : PurePath) : Option String :=
  if startPath = repoRoot then none
  else (startPath.relativeTo repoRoot).map (·.text)

namespace GitCall

def subcommand : GitCall → String
  | .status _ => "status"
  | .diff .. => "diff"
  | .history .. => "log"

def options : GitCall → List String
  | .status includeUntracked => ["--short", "--branch"]
    ++ if includeUntracked then [] else ["--untracked-files=no"]
  | .diff cached contextLines _ _ => (if cached then ["--cached"] else [])
    ++ contextLines.toList.map fun lines => "--unified=" ++ toString lines
  | .history limit _ =>
    ["--decorate", "--oneline", "-n" ++ toString (historyLimit limit)]

/-- The refs that are given. -/
def refs : GitCall → List String
  | .status _ => []
  | .diff _ _ baseRef headRef =>
    [refText baseRef, refText headRef].filter (· ≠ "")
  | .history _ ref => [refText ref].filter (· ≠ "")

/-- The subcommand with its options, the refs as revisions, and the path
as it is written. -/
def intended (call : GitCall) (target : Option String) : GitReading where
  subcommand := call.subcommand
  options := call.options
  revisions := call.refs
  pathspecs := target.toList.map .literal

/-- No ref looks like an option, and the path not like a pattern. -/
def Plain (call : GitCall) (target : Option String) : Prop :=
  (∀ ref ∈ call.refs, isOption ref = false)
    ∧ ∀ path ∈ target, readPathspec path = .literal path

end GitCall

-- ==== the builders' one shape

variable {call : GitCall} {target : Option String}

theorem args_eq (call : GitCall) (target : Option String) :
    call.args target = extendTarget
      (call.subcommand :: (call.options ++ call.refs)) target := by
  cases call with
  | status includeUntracked => cases includeUntracked <;> rfl
  | history limit ref =>
    by_cases h : refText ref = "" <;>
      simp [GitCall.args, gitHistoryArgs, GitCall.subcommand,
        GitCall.options, GitCall.refs, h]
  | diff cached contextLines baseRef headRef =>
    by_cases hb : refText baseRef = "" <;>
      by_cases hh : refText headRef = "" <;> cases cached <;>
        cases contextLines <;>
          simp [GitCall.args, gitDiffArgs, GitCall.subcommand,
            GitCall.options, GitCall.refs, hb, hh]

theorem argv_eq (repoRoot startPath : PurePath) {args : List String}
    (h : call.argv repoRoot startPath = .ok args) :
    args = call.args (narrowing repoRoot startPath) := by
  unfold GitCall.argv gitPathspec at h
  unfold narrowing
  by_cases hroot : startPath = repoRoot
  · rw [if_pos hroot] at h ⊢
    cases h
    rfl
  · rw [if_neg hroot] at h ⊢
    cases hrest : startPath.relativeTo repoRoot with
    | none =>
      rw [hrest] at h
      cases h
    | some rest =>
      rw [hrest] at h
      cases h
      rfl

theorem append_ne_separator {text : String} (s : String)
    (h : ¬text.toList <+: ['-', '-']) : text ++ s ≠ "--" := by
  intro heq
  apply h
  rw [show ['-', '-'] = "--".toList from rfl, ← heq, String.toList_append]
  exact List.prefix_append _ _

theorem isOption_append {text : String} (s : String)
    (h : isOption text = true) : isOption (text ++ s) = true := by
  simp only [isOption, decide_eq_true_eq, String.toList_append] at h ⊢
  rw [List.head?_append, h]
  rfl

theorem options_are_options :
    ∀ arg ∈ call.options, isOption arg = true ∧ arg ≠ "--" := by
  intro arg hmem
  cases call with
  | status includeUntracked =>
    revert arg
    cases includeUntracked <;> decide
  | diff cached contextLines =>
    rcases List.mem_append.1 hmem with hmem | hmem
    · cases cached with
      | false => cases hmem
      | true =>
        cases List.mem_singleton.1 hmem
        decide
    · obtain ⟨lines, -, rfl⟩ := List.mem_map.1 hmem
      exact ⟨isOption_append _ (by decide),
        append_ne_separator _ (by decide)⟩
  | history limit =>
    rcases List.mem_cons.1 hmem with rfl | hmem
    · decide
    rcases List.mem_cons.1 hmem with rfl | hmem
    · decide
    cases List.mem_singleton.1 hmem
    exact ⟨isOption_append _ (by decide),
      append_ne_separator _ (by decide)⟩

-- ========= the reading

/-- Where every ref is a revision the vector is cut behind the refs. -/
theorem readArgs_of_refs (h : ∀ ref ∈ call.refs, isOption ref = false) :
    readArgs (call.args target) = some { call.intended target with
      pathspecs := target.toList.map readPathspec } := by
  have hoptions : ∀ arg ∈ call.options, isOption arg = true ∧ arg ≠ "--" :=
    options_are_options
  have hbefore : ∀ arg ∈ call.options ++ call.refs,
      decide (arg ≠ "--") = true := by
    intro arg hmem
    rcases List.mem_append.1 hmem with hmem | hmem
    · exact decide_eq_true (hoptions arg hmem).2
    · apply decide_eq_true
      intro heq
      subst heq
      exact absurd (h _ hmem) (by decide)
  have hrefs : call.refs.filter isOption = []
      ∧ call.refs.filter (!isOption ·) = call.refs := by
    refine ⟨List.filter_eq_nil_iff.2 fun ref hmem => ?_,
      List.filter_eq_self.2 fun ref hmem => ?_⟩ <;> simp [h ref hmem]
  have hopts : call.options.filter isOption = call.options
      ∧ call.options.filter (!isOption ·) = [] := by
    refine ⟨List.filter_eq_self.2 fun arg hmem => ?_,
      List.filter_eq_nil_iff.2 fun arg hmem => ?_⟩ <;>
        simp [(hoptions arg hmem).1]
  rw [args_eq]
  cases target with
  | none =>
    simp only [extendTarget, readArgs, Option.some.injEq]
    rw [← List.append_nil (call.options ++ call.refs),
      List.takeWhile_append_of_pos hbefore,
      List.dropWhile_append_of_pos hbefore]
    simp [GitCall.intended, List.filter_append, hrefs, hopts]
  | some path =>
    simp only [extendTarget, readArgs, List.cons_append,
      Option.some.injEq]
    rw [List.takeWhile_append_of_pos hbefore,
      List.dropWhile_append_of_pos hbefore]
    simp [GitCall.intended, List.filter_append, hrefs, hopts]

theorem revisions_plain {args : List String} {reading : GitReading}
    (h : readArgs args = some reading) :
    ∀ ref ∈ reading.revisions, isOption ref = false := by
  cases args with
  | nil => cases h
  | cons subcommand rest =>
    cases h
    intro ref hmem
    simpa using (List.mem_filter.1 hmem).2

end WeaveRuntime.Kits
