/-
The Python values the runtime handles without a type of its own: tool
outputs, metadata mappings, patch values.

The language's behaviour on them is modelled by small total functions
under the built-ins' names (`pyStr`, `pyInt`, `truthy`, `pyStrip`), each
with the outcome Python documents: `pyInt` fails where `int()` raises,
`pyStrip` removes Python's whitespace at both ends, `truthy` is the
falsy-fallback test of `x or y`.

# Numbers and strings

A float is kept as its `repr` text, which determines it. `int()` of a
float reads that text and truncates toward zero. A string is a sequence
of Unicode scalar values. An object of a type the runtime does not look
into is known only by the text `str()` gives for it (`other`).

A mapping key is a string or some other hashable object, again known by
its text; two distinct keys may share their text, so a mapping is an
association list over `PyKey`, and `str(key)` may merge entries.
-/
import Mathlib.Data.List.Basic

namespace WeaveRuntime.Python

-- ============== values

/-- A mapping key: a string, or another hashable object with this
`str()` text. -/
inductive PyKey where
  | str (s : String)
  | other (text : String)
  deriving DecidableEq, Repr

def PyKey.text : PyKey → String
  | .str s => s
  | .other t => t

/-- A Python value. -/
inductive PyVal where
  | none
  | bool (b : Bool)
  | int (i : Int)
  | float (repr : String)
  | str (s : String)
  | list (items : List PyVal)
  | dict (items : List (PyKey × PyVal))
  | other (text : String)
  deriving Repr

instance : Inhabited PyVal := ⟨.none⟩

/-- `mapping.get(key)` for a string key: `none` when the key is absent. -/
def lookupKey (items : List (PyKey × PyVal)) (key : String) : Option PyVal :=
  (items.find? fun e => e.1 = .str key).map Prod.snd

/-- `bool(value)`, the test of `value or fallback`. -/
def PyVal.truthy : PyVal → Bool
  | .none => false
  | .bool b => b
  | .int i => i != 0
  | .float r => r != "0.0" && r != "-0.0"
  | .str s => s != ""
  | .list items => !items.isEmpty
  | .dict items => !items.isEmpty
  | .other _ => true

def pyOr (left right : PyVal) : PyVal := if left.truthy then left else right

def orText (left right : Option String) : Option String :=
  match left with
  | some text => if text = "" then right else some text
  | none => right

-- ============= strings

/-- The characters `str.strip()` and `str.isspace()` treat as white
space. -/
def isPySpace (c : Char) : Bool :=
  let n := c.toNat
  (9 ≤ n && n ≤ 13) || (28 ≤ n && n ≤ 32) || n == 0x85 || n == 0xa0
    || n == 0x1680 || (0x2000 ≤ n && n ≤ 0x200a) || n == 0x2028
    || n == 0x2029 || n == 0x202f || n == 0x205f || n == 0x3000

/-- Drop white space at both ends of a character list. -/
def stripChars (cs : List Char) : List Char :=
  ((cs.dropWhile isPySpace).reverse.dropWhile isPySpace).reverse

def pyStrip (s : String) : String := String.ofList (stripChars s.toList)

/-- A string that `str.strip()` leaves alone and that is not empty. -/
def Stripped (s : String) : Prop := pyStrip s = s ∧ s ≠ ""

instance (s : String) : Decidable (Stripped s) :=
  inferInstanceAs (Decidable (_ ∧ _))

theorem dropWhile_dropWhile (p : Char → Bool) (cs : List Char) :
    (cs.dropWhile p).dropWhile p = cs.dropWhile p := by
  induction cs with
  | nil => rfl
  | cons c cs ih =>
    by_cases hc : p c = true
    · rw [List.dropWhile_cons_of_pos hc, ih]
    · rw [List.dropWhile_cons_of_neg hc, List.dropWhile_cons_of_neg hc]

theorem dropWhile_rdrop {p : Char → Bool} {cs : List Char}
    (h : cs.dropWhile p = cs) :
    ((cs.reverse.dropWhile p).reverse).dropWhile p
      = (cs.reverse.dropWhile p).reverse := by
  cases cs with
  | nil => rfl
  | cons c cs =>
    -- the head survives unless everything is dropped
    have hc : p c = false := by
      by_contra hc
      rw [Bool.not_eq_false] at hc
      rw [List.dropWhile_cons_of_pos hc] at h
      have hlen := congrArg List.length h
      have hle := (List.dropWhile_sublist p (l := cs)).length_le
      simp only [List.length_cons] at hlen
      omega
    rw [List.reverse_cons, List.dropWhile_append]
    split
    · next hnil =>
      have hkeep : [c].dropWhile p = [c] :=
        List.dropWhile_cons_of_neg (by simp [hc])
      rw [hkeep]
      simp [hc]
    · next hne =>
      rw [List.reverse_append, List.reverse_singleton, List.singleton_append,
        List.dropWhile_cons_of_neg (by simp [hc])]

theorem stripChars_stripChars (cs : List Char) :
    stripChars (stripChars cs) = stripChars cs := by
  unfold stripChars
  rw [dropWhile_rdrop (dropWhile_dropWhile isPySpace cs), List.reverse_reverse,
    dropWhile_dropWhile]

@[simp] theorem pyStrip_pyStrip (s : String) :
    pyStrip (pyStrip s) = pyStrip s := by
  unfold pyStrip
  rw [String.toList_ofList, stripChars_stripChars]

-- ========= conversions

/-- Two lower-case hexadecimal digits. -/
private def hexByte (n : Nat) : List Char :=
  [Nat.digitChar (n / 16 % 16), Nat.digitChar (n % 16)]

/-- One character of a `repr`, quoted by `quote`. Characters past ASCII
are kept, as `repr` keeps what is printable. -/
private def reprChar (quote c : Char) : List Char :=
  if c = quote || c = '\\' then ['\\', c]
  else if c = '\n' then ['\\', 'n']
  else if c = '\r' then ['\\', 'r']
  else if c = '\t' then ['\\', 't']
  else if c.toNat < 32 || c.toNat = 127 then '\\' :: 'x' :: hexByte c.toNat
  else [c]

/-- `repr()` of a string: single quotes, unless only those occur in it. -/
def reprStr (s : String) : String :=
  let cs := s.toList
  let quote := if cs.contains '\'' && !cs.contains '"' then '"' else '\''
  String.ofList (quote :: cs.flatMap (reprChar quote) ++ [quote])

def PyKey.repr : PyKey → String
  | .str s => reprStr s
  | .other t => t

mutual

/-- `repr(value)`. -/
def pyRepr : PyVal → String
  | .none => "None"
  | .bool b => if b then "True" else "False"
  | .int i => toString i
  | .float r => r
  | .str s => reprStr s
  | .list items => "[" ++ ", ".intercalate (pyReprItems items) ++ "]"
  | .dict items => "\x7b" ++ ", ".intercalate (pyReprFields items) ++ "\x7d"
  | .other t => t

def pyReprItems : List PyVal → List String
  | [] => []
  | v :: vs => pyRepr v :: pyReprItems vs

def pyReprFields : List (PyKey × PyVal) → List String
  | [] => []
  | (k, v) :: fs => (k.repr ++ ": " ++ pyRepr v) :: pyReprFields fs

end

/-- `str(value)`: `repr` except on a string, which is itself. -/
def pyStr : PyVal → String
  | .str s => s
  | v => pyRepr v

/-- The decimal digits of a text, with Python's single underscores
between digits. -/
private def parseDigits : List Char → Option Nat
  | [] => none
  | c :: cs =>
    if c.isDigit then go (c.toNat - '0'.toNat) cs else none
where
  go (acc : Nat) : List Char → Option Nat
    | [] => some acc
    | '_' :: c :: cs =>
      if c.isDigit then go (acc * 10 + (c.toNat - '0'.toNat)) cs else none
    | c :: cs =>
      if c.isDigit then go (acc * 10 + (c.toNat - '0'.toNat)) cs else none

/-- `int(text)`: an optional sign and digits, white space around them. -/
def parseInt (s : String) : Option Int :=
  match stripChars s.toList with
  | '-' :: cs => (parseDigits cs).map fun n => -(n : Int)
  | '+' :: cs => (parseDigits cs).map fun n => (n : Int)
  | cs => (parseDigits cs).map fun n => (n : Int)

private theorem parseDigits_of_isDigit {cs : List Char}
    (hdigits : ∀ c ∈ cs, c.isDigit = true) (hne : cs ≠ []) :
    parseDigits cs = some (Nat.ofDigitChars 10 cs 0) := by
  have hgo : ∀ (ds : List Char) (acc : Nat),
      (∀ c ∈ ds, c.isDigit = true) →
      parseDigits.go acc ds = some (Nat.ofDigitChars 10 ds acc) := by
    intro ds
    induction ds with
    | nil =>
      intro acc _
      rfl
    | cons d ds ih =>
      intro acc hds
      have hd := hds d (List.mem_cons_self ..)
      have hstep : parseDigits.go acc (d :: ds)
          = parseDigits.go (acc * 10 + (d.toNat - '0'.toNat)) ds := by
        rw [parseDigits.go.eq_3 _ _ _ ?_, if_pos hd]
        rintro c cs rfl _
        cases hd
      rw [hstep, ih _ fun c hc => hds c (List.mem_cons_of_mem _ hc)]
      rw [Nat.ofDigitChars_cons, Nat.mul_comm]
  cases cs with
  | nil => exact absurd rfl hne
  | cons c cs =>
    rw [parseDigits, if_pos (hdigits c (List.mem_cons_self ..)),
      hgo _ _ fun d hd => hdigits d (List.mem_cons_of_mem _ hd)]
    rw [Nat.ofDigitChars_cons]
    simp

/-- The magnitude of a float's `repr`, truncated toward zero. -/
private def truncMagnitude (cs : List Char) : Option Nat :=
  let (mantissa, expo) := cs.span fun c => c ≠ 'e'
  let (whole, frac) := mantissa.span fun c => c ≠ '.'
  let frac := frac.drop 1
  match parseDigits (whole ++ frac), parseInt (String.ofList (expo.drop 1)) with
  | none, _ => none
  | some m, e =>
    let e := (if expo.isEmpty then 0 else e.getD 0) - (frac.length : Int)
    some (if 0 ≤ e then m * Nat.pow 10 e.toNat
      else m / Nat.pow 10 (-e).toNat)

/-- `int()` of a float, from its `repr`; infinities and NaN have none. -/
def floatTrunc (r : String) : Option Int :=
  match r.toList with
  | '-' :: cs => (truncMagnitude cs).map fun n => -(n : Int)
  | cs => (truncMagnitude cs).map fun n => (n : Int)

/-- `int(value)`: `none` where it raises. -/
def pyInt : PyVal → Option Int
  | .bool b => some (if b then 1 else 0)
  | .int i => some i
  | .float r => floatTrunc r
  | .str s => parseInt s
  | _ => none

def stripOrNone (s : String) : Option String :=
  if pyStrip s = "" then none else some (pyStrip s)

/-- The `_coerce_optional_string` the runtime's modules share: the
stripped text, or nothing. -/
def coerceOptionalString : PyVal → Option String
  | .none => none
  | v => stripOrNone (pyStr v)

def coerceOptional (s : Option String) : Option String := s.bind stripOrNone

@[simp] theorem pyStr_str (s : String) : pyStr (.str s) = s := rfl

@[simp] theorem coerceOptionalString_none :
    coerceOptionalString .none = none := rfl

theorem coerceOptionalString_str (s : String) :
    coerceOptionalString (.str s) = stripOrNone s := by
  simp only [coerceOptionalString, pyStr_str]

@[simp] theorem coerceOptional_none : coerceOptional none = none := rfl

theorem coerceOptional_some (s : String) :
    coerceOptional (some s) = stripOrNone s := by
  simp only [coerceOptional, Option.bind_some]

theorem stripped_of_stripOrNone {s t : String}
    (h : stripOrNone s = some t) : Stripped t := by
  unfold stripOrNone at h
  split at h
  · cases h
  · next hne =>
    cases h
    exact ⟨pyStrip_pyStrip s, hne⟩

theorem stripOrNone_of_stripped {s : String} (h : Stripped s) :
    stripOrNone s = some s := by
  unfold stripOrNone
  rw [h.1, if_neg h.2]

theorem stripped_of_coerceOptionalString {v : PyVal} {s : String}
    (h : coerceOptionalString v = some s) : Stripped s := by
  cases v with
  | none => cases h
  | _ =>
    unfold coerceOptionalString at h
    exact stripped_of_stripOrNone h

theorem coerceOptional_of_stripped {s : String} (h : Stripped s) :
    coerceOptional (some s) = some s := by
  rw [coerceOptional_some, stripOrNone_of_stripped h]

-- ========= identifiers

def isHexDigit (c : Char) : Bool :=
  c.isDigit || (97 ≤ c.toNat && c.toNat ≤ 102)

/-- The text of `uuid4().hex`: 32 lower-case hexadecimal digits. -/
structure UuidHex where
  text : String
  digits : text.length = 32 ∧ text.toList.all isHexDigit = true

theorem isPySpace_of_isHexDigit {c : Char} (h : isHexDigit c = true) :
    isPySpace c = false := by
  have hval : (48 ≤ c.toNat ∧ c.toNat ≤ 57)
      ∨ (97 ≤ c.toNat ∧ c.toNat ≤ 102) := by
    unfold isHexDigit at h
    rw [Bool.or_eq_true] at h
    rcases h with h | h
    · rw [Char.isDigit, Bool.and_eq_true, decide_eq_true_eq,
        decide_eq_true_eq] at h
      exact Or.inl ⟨h.1, h.2⟩
    · exact Or.inr (by simpa using h)
  simp only [isPySpace, Bool.or_eq_false_iff, Bool.and_eq_false_iff,
    decide_eq_false_iff_not, beq_eq_false_iff_ne]
  omega

theorem stripChars_of_no_space {cs : List Char}
    (h : ∀ c ∈ cs, isPySpace c = false) : stripChars cs = cs := by
  have hdrop : ∀ ds : List Char, (∀ c ∈ ds, isPySpace c = false) →
      ds.dropWhile isPySpace = ds := by
    intro ds hds
    cases ds with
    | nil => rfl
    | cons d ds =>
      refine List.dropWhile_cons_of_neg ?_
      rw [hds d (List.mem_cons_self ..)]
      exact Bool.false_ne_true
  unfold stripChars
  rw [hdrop cs h, hdrop cs.reverse fun c hc => h c (List.mem_reverse.1 hc),
    List.reverse_reverse]

theorem UuidHex.stripped (id : UuidHex) : Stripped id.text := by
  obtain ⟨text, hlen, hall⟩ := id
  refine ⟨?_, ?_⟩
  · show String.ofList (stripChars text.toList) = text
    rw [stripChars_of_no_space, String.ofList_toList]
    intro c hc
    exact isPySpace_of_isHexDigit (List.all_eq_true.1 hall c hc)
  · intro hempty
    rw [show text = "" from hempty] at hlen
    cases hlen

theorem isPySpace_of_isDigit {c : Char} (h : c.isDigit = true) :
    isPySpace c = false := by
  refine isPySpace_of_isHexDigit ?_
  unfold isHexDigit
  rw [h, Bool.true_or]

theorem pyStrip_pyStr_nat (n : Nat) :
    pyStrip (pyStr (.int n)) = pyStr (.int n) := by
  show String.ofList (stripChars n.repr.toList) = n.repr
  rw [stripChars_of_no_space, String.ofList_toList]
  intro c hc
  rw [Nat.toList_repr] at hc
  exact isPySpace_of_isDigit
    (Nat.isDigit_of_mem_toDigits (by omega) (by omega) hc)

theorem parseInt_pyStr_nat (n : Nat) :
    parseInt (pyStr (.int n)) = some (n : Int) := by
  have hdigits : ∀ c ∈ Nat.toDigits 10 n, c.isDigit = true :=
    fun c hc => Nat.isDigit_of_mem_toDigits (by omega) (by omega) hc
  have hchars : stripChars (pyStr (.int n)).toList = Nat.toDigits 10 n := by
    show stripChars n.repr.toList = _
    rw [Nat.toList_repr]
    exact stripChars_of_no_space fun c hc =>
      isPySpace_of_isDigit (hdigits c hc)
  have hparse := parseDigits_of_isDigit hdigits Nat.toDigits_ne_nil
  rw [Nat.ofDigitChars_toDigits (by omega) (by omega)] at hparse
  unfold parseInt
  rw [hchars]
  split
  · next cs hcs =>
    have hminus := hdigits '-' (by rw [hcs]; exact List.mem_cons_self ..)
    cases hminus
  · next cs hcs =>
    have hplus := hdigits '+' (by rw [hcs]; exact List.mem_cons_self ..)
    cases hplus
  · rw [hparse]
    rfl

example : [pyInt (.str " -12 "), pyInt (.float "-0.75"), pyInt (.str "1x")]
    = [some (-12), some 0, none] := by decide

end WeaveRuntime.Python
