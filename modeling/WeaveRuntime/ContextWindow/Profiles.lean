/-
Context-window profiles: how a list of them is validated, and how one is
resolved for a model.

The two sides read a pattern selector each in its own way. Resolution asks
`fnmatch`; validation tokenizes the pattern itself (`selectorReading`) and
asks whether the token sequences of two selectors intersect. The walk over
the tokens is complete (`Glob.overlaps_of_matches`), so what a validated
list can still be ambiguous about is exactly what the two READINGS of a
selector differ in (`resolution_unambiguous_iff`).

They differ in classes only: the tokenizer takes a leading `^` for a
negation, closes a class at a `]` right after its opening, reads no range
that ends in `-`, and turns a range around whose ends are out of order,
which under a negation loses characters. A selector without such a class
is read alike (`readAlike_of_plain`).
-/
import WeaveRuntime.Lib.Raise
import WeaveRuntime.Python.Fnmatch

namespace WeaveRuntime.ContextWindow

open Lib
open Lib.Glob
open Python

-- =========== selectors

def selectorHasPattern (selector : String) : Bool :=
  selector.toList.any fun c => c ∈ ['*', '?', '[', ']']

/-- `_MODEL_SELECTOR_ALPHABET`: what `string.printable` holds besides white
space. -/
def modelSelectorAlphabet : List Char :=
  (List.range 94).map fun n => Char.ofNat (n + 33)

/-- The body of a class without its negation, and whether it has one. -/
def selectorNegation : List Char → Bool × List Char
  | '!' :: body => (true, body)
  | '^' :: body => (true, body)
  | body => (false, body)

/-- The ranges the tokenizer reads in a body, each in order. -/
def selectorRanges : List Char → List (Char × Char)
  | c :: '-' :: d :: cs =>
    if d ≠ '-' then
      (if c ≤ d then (c, d) else (d, c)) :: selectorRanges cs
    else (c, c) :: selectorRanges ('-' :: d :: cs)
  | c :: cs => (c, c) :: selectorRanges cs
  | [] => []

/-- The characters of the alphabet a class holds. -/
def selectorClass (body : List Char) : List Char :=
  let (negated, rest) := selectorNegation body
  modelSelectorAlphabet.filter fun c =>
    inRanges (selectorRanges rest) c != negated

/-- How `_tokenize_selector_pattern` reads a pattern: a token holds a set
of characters. -/
def selectorReading : Reading (List Char) where
  anyChar := modelSelectorAlphabet
  literal c := [c]
  split := splitAtClose
  charClass := selectorClass

def tokenizeSelectorPattern (pattern : String) : List (Token (List Char)) :=
  tokenize selectorReading pattern

/-- Two tokens have a character in common. -/
def tokensMeet (left right : List Char) : Bool :=
  left.any fun c => decide (c ∈ right)

def selectorPatternsOverlap (left right : String) : Bool :=
  overlaps tokensMeet (tokenizeSelectorPattern left)
    (tokenizeSelectorPattern right)

-- ============ profiles

/-- The fields of `ModelContextWindowProfile` that say which models it is
for. -/
structure ModelContextWindowProfile where
  providerName : Option String
  modelSelector : Option String
  profileName : Option String
  deriving DecidableEq

inductive SelectorKind where
  | providerDefault | pattern | exact
  deriving DecidableEq

def ModelContextWindowProfile.selectorKind (p : ModelContextWindowProfile) :
    SelectorKind :=
  match p.modelSelector with
  | none => .providerDefault
  | some selector =>
    if selectorHasPattern selector then .pattern else .exact

def ModelContextWindowProfile.serves (p : ModelContextWindowProfile)
    (providerName : Option String) : Bool :=
  p.providerName.isNone || providerName.isNone
    || p.providerName == providerName

def ModelContextWindowProfile.covers (p : ModelContextWindowProfile)
    (providerName modelName : Option String) : Bool :=
  p.serves providerName &&
    match p.modelSelector, modelName with
    | none, _ => true
    | some _, none => false
    | some selector, some model =>
      if selectorHasPattern selector then fnmatch model selector
      else selector == model

-- ========== validation

def providerScopesOverlap (left right : Option String) : Bool :=
  left.isNone || right.isNone || left == right

def textOr (left right : Option String) : Option String :=
  match left with
  | some text => if text = "" then right else some text
  | none => right

def providerOverlapLabel (left right : Option String) : String :=
  if left = right then (textOr left (some "<any>")).getD "<any>"
  else (textOr left (textOr right (some "<any>"))).getD "<any>"

/-- What is reported of a profile's name and an earlier one's. -/
def refDiagnostics (label : String)
    (profile other : ModelContextWindowProfile) : List String :=
  match profile.profileName with
  | some name =>
    if profile.profileName = other.profileName then
      ["duplicate_profile_ref:" ++ label ++ ":" ++ name] else []
  | none => []

/-- What is reported of two selectors. -/
def selectorDiagnostics (label : String)
    (profile other : ModelContextWindowProfile) : List String :=
  if profile.selectorKind ≠ other.selectorKind then []
  else match profile.modelSelector, other.modelSelector with
  | some selector, some earlier =>
    if selectorHasPattern selector then
      if selector = earlier then
        ["duplicate_pattern_profile:" ++ label ++ ":" ++ selector]
      else if selectorPatternsOverlap selector earlier then
        ["ambiguous_pattern_profile:" ++ label ++ ":" ++ earlier ++ ":"
          ++ selector]
      else []
    else if selector = earlier then
      ["duplicate_exact_profile:" ++ label ++ ":" ++ selector]
    else []
  | none, _ => ["duplicate_provider_default:" ++ label]
  | some _, none => []

/-- What a profile and one before it are reported for. -/
def diagnostics (profile other : ModelContextWindowProfile) : List String :=
  if providerScopesOverlap profile.providerName other.providerName then
    let label :=
      providerOverlapLabel profile.providerName other.providerName
    refDiagnostics label profile other
      ++ selectorDiagnostics label profile other
  else []

/-- The loop of `validate_model_context_window_profiles`, with the profiles
it has passed. -/
def validateAfter (passed : List ModelContextWindowProfile) :
    List ModelContextWindowProfile → List String
  | [] => []
  | profile :: rest =>
    passed.flatMap (diagnostics profile)
      ++ validateAfter (passed ++ [profile]) rest

def validateModelContextWindowProfiles
    (profiles : List ModelContextWindowProfile) : List String :=
  validateAfter [] profiles

-- ========== resolution

/-- The `ValueError`s of `resolve_context_window_profile`. -/
inductive ResolutionError where
  | ambiguousRef (providerName : Option String) (profileRef : String)
  | unknownRef (providerName : Option String) (profileRef : String)
  | ambiguous (kind : SelectorKind) (providerName : Option String)
  deriving DecidableEq

def SelectorKind.label : SelectorKind → String
  | .providerDefault => "provider_default"
  | .pattern => "pattern"
  | .exact => "exact"

def ResolutionError.message : ResolutionError → String
  | .ambiguousRef provider ref =>
    "Ambiguous context window profile_ref for provider "
      ++ (textOr provider (some "<any>")).getD "<any>" ++ ": " ++ ref
  | .unknownRef provider ref =>
    "Unknown context window profile_ref for provider "
      ++ (textOr provider (some "<any>")).getD "<any>" ++ ": " ++ ref
  | .ambiguous kind provider =>
    "Ambiguous " ++ kind.label ++ " context window profiles for provider "
      ++ (textOr provider (some "<any>")).getD "<any>"

def ResolutionError.isAmbiguous : ResolutionError → Bool
  | .unknownRef _ _ => false
  | _ => true

/-- One profile of several: more than one is an error. -/
def single (found : List ModelContextWindowProfile)
    (error : ResolutionError) :
    Except ResolutionError (Option ModelContextWindowProfile) :=
  match found with
  | [] => .ok none
  | [profile] => .ok (some profile)
  | _ => .error error

def resolveByRef (providerName : Option String)
    (profiles : List ModelContextWindowProfile) (profileRef : String) :
    Except ResolutionError (Option ModelContextWindowProfile) := do
  let found ← single
    (profiles.filter fun p =>
      p.profileName == some profileRef && p.serves providerName)
    (.ambiguousRef providerName profileRef)
  match found with
  | some profile => .ok (some profile)
  | none => .error (.unknownRef providerName profileRef)

def coveringOf (kind : SelectorKind) (providerName modelName : Option String)
    (profiles : List ModelContextWindowProfile) :
    List ModelContextWindowProfile :=
  profiles.filter fun p =>
    p.covers providerName modelName && decide (p.selectorKind = kind)

/-- Resolution by model: exact profiles first, then patterns, then the
defaults of the provider. -/
def resolveByModel (providerName modelName : Option String)
    (profiles : List ModelContextWindowProfile) :
    Except ResolutionError (Option ModelContextWindowProfile) := do
  let exact ← single (coveringOf .exact providerName modelName profiles)
    (.ambiguous .exact providerName)
  match exact with
  | some profile => .ok (some profile)
  | none => do
    let pattern ← single
      (coveringOf .pattern providerName modelName profiles)
      (.ambiguous .pattern providerName)
    match pattern with
    | some profile => .ok (some profile)
    | none =>
      single (coveringOf .providerDefault providerName modelName profiles)
        (.ambiguous .providerDefault providerName)

def resolveContextWindowProfile (providerName modelName : Option String)
    (profiles : List ModelContextWindowProfile) (profileRef : Option String) :
    Except ResolutionError (Option ModelContextWindowProfile) :=
  match profileRef with
  | some ref => resolveByRef providerName profiles ref
  | none => resolveByModel providerName modelName profiles

end WeaveRuntime.ContextWindow
