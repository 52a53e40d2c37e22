/-
UTC datetimes and their ISO 8601 text.

The runtime takes its times from `utc_now()`, an aware datetime in UTC.
It is kept by its fields, which carry the fact that they name a day of
the calendar and a time of that day, so that every value has a text.

`isoformat` is the text Python writes: the fraction is left out when it is
zero, and the offset is always `+00:00`. `fromisoformat` reads the texts
of that shape back; the other ISO 8601 shapes Python accepts are never
written by the runtime and read as nothing here.

# The round trip

`readNat_pad` reads a padded number back from the front of a text, and
the whole round trip (`fromisoformat_isoformat`) is that lemma once per
field.
-/
import Mathlib.Data.List.Basic

namespace WeaveRuntime.Python

-- =========== the clock

/-- The length of a month of the Gregorian calendar. -/
def daysInMonth (year month : Nat) : Nat :=
  if month = 2 then
    if year % 4 = 0 && (year % 100 != 0 || year % 400 = 0) then 29 else 28
  else if month = 4 || month = 6 || month = 9 || month = 11 then 30
  else 31

structure DatetimeFields where
  year : Nat
  month : Nat
  day : Nat
  hour : Nat
  minute : Nat
  second : Nat
  microsecond : Nat
  deriving DecidableEq, Repr

/-- The ranges the `datetime` constructor checks. -/
def DatetimeFields.InRange (f : DatetimeFields) : Prop :=
  (1 ≤ f.year ∧ f.year ≤ 9999) ∧ (1 ≤ f.month ∧ f.month ≤ 12)
    ∧ (1 ≤ f.day ∧ f.day ≤ daysInMonth f.year f.month)
    ∧ f.hour < 24 ∧ f.minute < 60 ∧ f.second < 60
    ∧ f.microsecond < 1000000

instance (f : DatetimeFields) : Decidable f.InRange :=
  inferInstanceAs (Decidable (_ ∧ _))

/-- An aware datetime in UTC. -/
structure Datetime where
  fields : DatetimeFields
  inRange : fields.InRange
  deriving DecidableEq

theorem inRange_newYear :
    DatetimeFields.InRange ⟨2025, 1, 1, 0, 0, 0, 0⟩ := by decide

def newYear : Datetime := ⟨⟨2025, 1, 1, 0, 0, 0, 0⟩, inRange_newYear⟩

/-- A number that orders datetimes as Python compares them: by the fields,
from the year down. -/
def Datetime.stamp (t : Datetime) : Nat :=
  let f := t.fields
  (((((f.year * 13 + f.month) * 32 + f.day) * 24 + f.hour) * 60
    + f.minute) * 60 + f.second) * 1000000 + f.microsecond

def daysBeforeYear (year : Nat) : Nat :=
  let y := year - 1
  y * 365 + y / 4 - y / 100 + y / 400

/-- Microseconds since the first instant of year 1. -/
def Datetime.micros (t : Datetime) : Int :=
  let f := t.fields
  let days := daysBeforeYear f.year
    + (List.range' 1 (f.month - 1)).foldl
        (fun days month => days + daysInMonth f.year month) 0
    + (f.day - 1)
  ((((days * 24 + f.hour) * 60 + f.minute) * 60 + f.second) * 1000000
    + f.microsecond : Nat)

def datetimeRange : Int := daysBeforeYear 10000 * (24 * 60 * 60 * 1000000)

theorem daysInMonth_le (year month : Nat) : daysInMonth year month ≤ 31 := by
  unfold daysInMonth
  split
  · split <;> omega
  · split <;> omega

-- ============= numbers

/-- The last `k` decimal digits of `n`. -/
def pad : Nat → Nat → List Char
  | 0, _ => []
  | k + 1, n => pad k (n / 10) ++ [Nat.digitChar (n % 10)]

/-- How many numbers `k` digits can write. -/
def decimalBound : Nat → Nat
  | 0 => 1
  | k + 1 => 10 * decimalBound k

def readNat : Nat → Nat → List Char → Option (Nat × List Char)
  | 0, acc, cs => some (acc, cs)
  | _ + 1, _, [] => none
  | k + 1, acc, c :: cs =>
    if c.isDigit then readNat k (acc * 10 + (c.toNat - 48)) cs else none

/-- Read one given character. -/
def expect (c : Char) : List Char → Option (List Char)
  | [] => none
  | d :: cs => if d = c then some cs else none

@[simp] theorem expect_cons (c : Char) (cs : List Char) :
    expect c (c :: cs) = some cs := by
  simp [expect]

theorem readNat_succ {k acc v : Nat} {c : Char} {cs rest : List Char}
    (h : readNat k acc cs = some (v, c :: rest)) (hc : c.isDigit = true) :
    readNat (k + 1) acc cs = some (v * 10 + (c.toNat - 48), rest) := by
  induction k generalizing acc cs with
  | zero =>
    cases h
    simp [readNat, hc]
  | succ k ih =>
    cases cs with
    | nil => cases h
    | cons d cs =>
      rw [readNat] at h ⊢
      split at h
      · next hd =>
        rw [if_pos hd]
        exact ih h
      · cases h

theorem digitChar_reads : ∀ d < 10, (Nat.digitChar d).isDigit = true
    ∧ (Nat.digitChar d).toNat - 48 = d := by
  decide

theorem readNat_pad {k n : Nat} (h : n < decimalBound k)
    (rest : List Char) : readNat k 0 (pad k n ++ rest) = some (n, rest) := by
  induction k generalizing n rest with
  | zero =>
    rw [decimalBound] at h
    have hn : n = 0 := by omega
    subst hn
    rfl
  | succ k ih =>
    rw [decimalBound] at h
    have hdiv : n / 10 < decimalBound k := by omega
    obtain ⟨hdigit, hval⟩ := digitChar_reads (n % 10) (by omega)
    have hread := ih hdiv (Nat.digitChar (n % 10) :: rest)
    rw [pad, List.append_assoc, List.singleton_append,
      readNat_succ hread hdigit, hval]
    have hn : n / 10 * 10 + n % 10 = n := by omega
    rw [hn]

-- ============ the text

/-- The fraction of a second, left out when it is zero. -/
def fractionText (microsecond : Nat) : List Char :=
  if microsecond = 0 then [] else '.' :: pad 6 microsecond

/-- Read an optional fraction of a second. -/
def readFraction : List Char → Option (Nat × List Char)
  | '.' :: cs => readNat 6 0 cs
  | cs => some (0, cs)

def Datetime.isoformat (t : Datetime) : String :=
  let f := t.fields
  String.ofList (pad 4 f.year ++ '-' :: (pad 2 f.month ++ '-' ::
    (pad 2 f.day ++ 'T' :: (pad 2 f.hour ++ ':' :: (pad 2 f.minute ++ ':' ::
      (pad 2 f.second ++ (fractionText f.microsecond
        ++ ['+', '0', '0', ':', '0', '0'])))))))

/-- The fields of a text of the shape `isoformat` writes. -/
def readFields (cs : List Char) : Option DatetimeFields := do
  let (year, cs) ← readNat 4 0 cs
  let cs ← expect '-' cs
  let (month, cs) ← readNat 2 0 cs
  let cs ← expect '-' cs
  let (day, cs) ← readNat 2 0 cs
  let cs ← expect 'T' cs
  let (hour, cs) ← readNat 2 0 cs
  let cs ← expect ':' cs
  let (minute, cs) ← readNat 2 0 cs
  let cs ← expect ':' cs
  let (second, cs) ← readNat 2 0 cs
  let (microsecond, cs) ← readFraction cs
  if cs = ['+', '0', '0', ':', '0', '0'] then
    some { year, month, day, hour, minute, second, microsecond }
  else none

/-- `datetime.fromisoformat(text)`; `none` where it raises `ValueError`. -/
def fromisoformat (text : String) : Option Datetime :=
  (readFields text.toList).bind fun f =>
    if h : f.InRange then some ⟨f, h⟩ else none

theorem readFraction_fractionText {n : Nat} (h : n < 1000000)
    (rest : List Char) :
    readFraction (fractionText n ++ '+' :: rest) = some (n, '+' :: rest) := by
  unfold fractionText
  split
  · next h0 =>
    rw [h0]
    rfl
  · show readNat 6 0 (pad 6 n ++ '+' :: rest) = some (n, '+' :: rest)
    exact readNat_pad (k := 6) h _

@[simp] theorem fromisoformat_isoformat (t : Datetime) :
    fromisoformat t.isoformat = some t := by
  obtain ⟨f, hf⟩ := t
  obtain ⟨⟨-, hyear⟩, ⟨-, hmonth⟩, ⟨-, hday⟩, hhour, hminute, hsecond,
    hmicro⟩ := id hf
  have hday31 : f.day ≤ 31 := Nat.le_trans hday (daysInMonth_le _ _)
  have h4 : decimalBound 4 = 10000 := rfl
  have h2 : decimalBound 2 = 100 := rfl
  have hfields : readFields (Datetime.isoformat ⟨f, hf⟩).toList = some f := by
    unfold Datetime.isoformat readFields
    simp only [String.toList_ofList, Option.bind_eq_bind]
    rw [readNat_pad (k := 4) (by omega), Option.bind_some, expect_cons,
      Option.bind_some, readNat_pad (k := 2) (by omega), Option.bind_some,
      expect_cons, Option.bind_some, readNat_pad (k := 2) (by omega),
      Option.bind_some, expect_cons, Option.bind_some,
      readNat_pad (k := 2) (by omega), Option.bind_some, expect_cons,
      Option.bind_some, readNat_pad (k := 2) (by omega), Option.bind_some,
      expect_cons, Option.bind_some, readNat_pad (k := 2) (by omega),
      Option.bind_some, readFraction_fractionText hmicro, Option.bind_some,
      if_pos rfl]
  unfold fromisoformat
  rw [hfields, Option.bind_some, dif_pos hf]

example : (fromisoformat "2024-02-29T23:59:58.000120+00:00").map
    (fun t => t.fields.microsecond) = some 120 := by decide

example : (fromisoformat "2023-02-29T00:00:00+00:00").isNone = true := by
  decide

end WeaveRuntime.Python
