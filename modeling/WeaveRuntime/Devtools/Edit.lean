/-
The file edit of the devtools pack: the text is read with universal
newlines, edited, and written back whole. A file is its bytes; a text
read or given is a list of code points, lone surrogates among them.

What the edit should leave is said on the file's own marks, where a line
end keeps the bytes it has. The code leaves exactly that when no mark it
keeps is a CRLF or a CR and the new string has bytes at all.
-/
import WeaveRuntime.Python.Replace
import Mathlib.Data.Set.List

namespace WeaveRuntime.Devtools

open Python

-- ======== model: texts

/-- A code point of a Python string. -/
inductive CodePoint where
  | scalar (c : Char)
  | surrogate (n : Fin 2048)
deriving DecidableEq

def CodePoint.scalar? : CodePoint → Option Char
  | .scalar c => some c
  | .surrogate _ => none

/-- Universal newlines: CRLF and CR are read as LF. -/
def translateNewlines : List Char → List Char
  | '\r' :: '\n' :: rest => '\n' :: translateNewlines rest
  | '\r' :: rest => '\n' :: translateNewlines rest
  | c :: rest => c :: translateNewlines rest
  | [] => []

/-- `read_text(encoding="utf-8")` of a file with this text. -/
def readText (content : String) : List CodePoint :=
  (translateNewlines content.toList).map .scalar

/-- The UTF-8 encoder: a lone surrogate has no bytes. -/
def encode (text : List CodePoint) : Option ByteArray :=
  (text.mapM CodePoint.scalar?).map fun cs => (String.ofList cs).toUTF8

-- ===== model: the tool

structure EditInput where
  old_string : List CodePoint
  new_string : List CodePoint
  replace_all : Bool

inductive Raised where
  | unicodeDecodeError
  | valueError (text : String)
  | unicodeEncodeError
deriving DecidableEq

/-- The count that `replace` is called with. -/
def EditInput.count (i : EditInput) : Option Nat :=
  if i.replace_all then none else some 1

/-- The edit of a text as read, and the file afterwards. The file is
opened for writing before the text is encoded. -/
def writeEdited (i : EditInput) (file : Option ByteArray)
    (original : List CodePoint) : Except Raised Unit × Option ByteArray :=
  if ¬ i.old_string <:+: original ∧ i.old_string ≠ [] then
    (.error (.valueError "old_string not found in file"), file)
  else
    match encode (pyReplace i.old_string i.new_string i.count original) with
    | some bytes => (.ok (), some bytes)
    | none => (.error .unicodeEncodeError, some ByteArray.empty)

def editFileTool (i : EditInput) (file : Option ByteArray) :
    Except Raised Unit × Option ByteArray :=
  match file with
  | none => writeEdited i file []
  | some bytes =>
    match String.fromUTF8? bytes with
    | some content => writeEdited i file (readText content)
    | none => (.error .unicodeDecodeError, file)

-- ==== the file's own marks

/-- A mark of a file: a line end with a CR, or any other character. -/
inductive Mark where
  | crlf
  | cr
  | char (c : Char) (h : c ≠ '\r')
deriving DecidableEq

/-- The characters a mark has in the file. -/
def Mark.raw : Mark → List Char
  | .crlf => ['\r', '\n']
  | .cr => ['\r']
  | .char c _ => [c]

/-- What it is read as. -/
def Mark.reading : Mark → Char
  | .crlf | .cr => '\n'
  | .char c _ => c

def Mark.isCr : Mark → Bool
  | .crlf | .cr => true
  | .char .. => false

def marks : List Char → List Mark
  | [] => []
  | '\r' :: '\n' :: rest => .crlf :: marks rest
  | c :: rest => if h : c = '\r' then .cr :: marks rest
    else .char c h :: marks rest

theorem translateNewlines_eq (cs : List Char) :
    translateNewlines cs = (marks cs).map Mark.reading := by
  fun_induction marks cs with
  | case1 => rfl
  | case2 rest ih => simp [translateNewlines, Mark.reading, ih]
  | case3 rest hnot ih =>
    rw [List.map_cons, ← ih, translateNewlines]
    · rfl
    · exact fun r h => hnot r rfl h
  | case4 c rest hnot hc ih =>
    rw [List.map_cons, ← ih, translateNewlines]
    · rfl
    · exact fun _ h _ => hc h
    · exact hc

-- ==== what an edit may change

/-- The file cut at the occurrences the edit replaces. -/
def EditInput.cut (i : EditInput) (content : String) :
    List (Piece Mark) :=
  pieces (fun m => .scalar m.reading) i.old_string 0 i.count
    (marks content.toList)

/-- The file's characters with the new string for each occurrence. -/
def EditInput.edited (i : EditInput) (content : String)
    (new : List Char) : List Char :=
  (i.cut content).flatMap (Piece.fill Mark.raw new)

/-- The edit writes the original bytes with the occurrences changed. -/
def ChangesOnlyOccurrences (i : EditInput) (content : String) : Prop :=
  ∃ new, i.new_string = new.map .scalar
    ∧ editFileTool i (some content.toUTF8)
        = (.ok (), some (String.ofList (i.edited content new)).toUTF8)

/-- No line end outside the occurrences has a CR. -/
def KeepsNoCr (i : EditInput) (content : String) : Prop :=
  ∀ m, .kept m ∈ i.cut content → m.isCr = false

-- ==== filling the pieces

variable {new : List Char} {ps : List (Piece Mark)}

/-- The text the code writes for the pieces. -/
def readFill (new : List Char) (ps : List (Piece Mark)) : List Char :=
  ps.flatMap (Piece.fill (fun m => [m.reading]) new)

theorem fill_eq_of_no_cr (h : ∀ m, .kept m ∈ ps → m.isCr = false) :
    readFill new ps = ps.flatMap (Piece.fill Mark.raw new) := by
  refine List.flatMap_congr fun p hp => ?_
  cases p with
  | occurrence => rfl
  | kept m =>
    cases m with
    | char c hc => rfl
    | _ => exact absurd (h _ hp) (by decide)

theorem count_cr (new : List Char) (ps : List (Piece Mark)) :
    (ps.flatMap (Piece.fill Mark.raw new)).count '\r'
      = (readFill new ps).count '\r'
        + ps.countP (Piece.fill (fun m => [m.isCr]) [] · = [true]) := by
  induction ps with
  | nil => rfl
  | cons p rest ih =>
    have hpiece : (p.fill Mark.raw new).count '\r'
        = (p.fill (fun m => [m.reading]) new).count '\r'
          + if p.fill (fun m => [m.isCr]) [] = [true] then 1 else 0 := by
      cases p with
      | occurrence => simp [Piece.fill]
      | kept m =>
        cases m with
        | char c hc => simp [Piece.fill, Mark.raw, Mark.reading, Mark.isCr]
        | _ => rfl
    simp only [readFill, List.flatMap_cons, List.count_append,
      List.countP_cons, decide_eq_true_eq] at ih ⊢
    omega

theorem no_cr_of_fill_eq
    (h : readFill new ps = ps.flatMap (Piece.fill Mark.raw new)) :
    ∀ m, .kept m ∈ ps → m.isCr = false := by
  have hcount := count_cr new ps
  rw [← h] at hcount
  have hnone := List.countP_eq_zero.1 (by omega :
    ps.countP (Piece.fill (fun m => [m.isCr]) [] · = [true]) = 0)
  intro m hm
  simpa [Piece.fill] using hnone _ hm

-- ============ the edit

theorem mapM_scalar {text : List CodePoint} {cs : List Char} :
    text.mapM CodePoint.scalar? = some cs ↔ text = cs.map .scalar := by
  induction text generalizing cs with
  | nil => cases cs <;> simp
  | cons p rest ih =>
    cases p with
    | surrogate n => cases cs <;> simp [CodePoint.scalar?]
    | scalar c =>
      cases cs with
      | nil => simp [CodePoint.scalar?, Option.bind_eq_some_iff]
      | cons d cs =>
        simp [CodePoint.scalar?, Option.bind_eq_some_iff, ih, and_comm]

theorem encode_eq_some {text : List CodePoint} {bytes : ByteArray} :
    encode text = some bytes
      ↔ ∃ cs, text = cs.map .scalar ∧ bytes = (String.ofList cs).toUTF8 := by
  simp [encode, mapM_scalar, eq_comm]

theorem toUTF8_ofList_inj {as bs : List Char} :
    (String.ofList as).toUTF8 = (String.ofList bs).toUTF8 ↔ as = bs := by
  rw [String.toUTF8_eq_toByteArray, String.toUTF8_eq_toByteArray,
    String.toByteArray_inj, String.ofList_inj]

theorem fromUTF8_toUTF8 (content : String) :
    String.fromUTF8? content.toUTF8 = some content := by
  simp [String.fromUTF8?, content.isValidUTF8, String.fromUTF8]

variable {i : EditInput} {content : String}

theorem updated_eq (hold : i.old_string ≠ []) :
    pyReplace i.old_string i.new_string i.count (readText content)
      = (i.cut content).flatMap
          (Piece.fill (fun m => [.scalar m.reading]) i.new_string) := by
  rw [pyReplace, if_neg hold, readText, translateNewlines_eq, List.map_map,
    flatMap_pieces_map]
  rfl

theorem updated_map (hold : i.old_string ≠ [])
    (hnew : i.new_string = new.map .scalar) :
    pyReplace i.old_string i.new_string i.count (readText content)
      = (readFill new (i.cut content)).map .scalar := by
  rw [updated_eq hold, readFill, List.map_flatMap]
  refine List.flatMap_congr fun p _ => ?_
  cases p with
  | kept m => rfl
  | occurrence => exact hnew

theorem editFileTool_of_occurs (hocc : i.old_string <:+: readText content) :
    editFileTool i (some content.toUTF8)
      = match encode (pyReplace i.old_string i.new_string i.count
            (readText content)) with
        | some bytes => (.ok (), some bytes)
        | none => (.error .unicodeEncodeError, some ByteArray.empty) := by
  rw [editFileTool, fromUTF8_toUTF8]
  exact if_neg fun h => h.1 hocc

/-- A new string without bytes is found out after the file was opened:
nothing is left of it. -/
theorem edit_of_surrogate (hold : i.old_string ≠ [])
    (hocc : i.old_string <:+: readText content)
    (hnew : ¬ ∃ new : List Char, i.new_string = new.map .scalar) :
    editFileTool i (some content.toUTF8)
      = (.error .unicodeEncodeError, some ByteArray.empty) := by
  rw [editFileTool_of_occurs hocc]
  cases h : encode (pyReplace i.old_string i.new_string i.count
      (readText content)) with
  | none => rfl
  | some bytes =>
    exfalso
    obtain ⟨cs, hcs, -⟩ := encode_eq_some.1 h
    have hfound : .occurrence ∈ i.cut content := by
      refine occurrence_mem_pieces hold ?_ ?_
      · unfold EditInput.count
        split <;> simp
      · rw [readText, translateNewlines_eq, List.map_map] at hocc
        exact hocc
    -- every code point of the new string is one of the text written
    have hall : i.new_string ∈ Set.range (List.map CodePoint.scalar) := by
      rw [Set.range_list_map]
      intro p hp
      have hmem : p ∈ cs.map CodePoint.scalar := by
        rw [← hcs, updated_eq hold]
        exact List.mem_flatMap.2 ⟨_, hfound, hp⟩
      obtain ⟨c, -, rfl⟩ := List.mem_map.1 hmem
      exact ⟨c, rfl⟩
    obtain ⟨new, h⟩ := hall
    exact hnew ⟨new, h.symm⟩

theorem edit_of_lone_surrogate :
    editFileTool ⟨[.scalar 'a'], [.surrogate 0], false⟩
        (some "xa\n".toUTF8)
      = (.error .unicodeEncodeError, some ByteArray.empty) := by
  refine edit_of_surrogate (by decide) (by decide) fun h => ?_
  obtain ⟨new, h⟩ := h
  cases new <;> simp at h

theorem keepsNoCr_of_changesOnly (hold : i.old_string ≠ [])
    (hocc : i.old_string <:+: readText content)
    (h : ChangesOnlyOccurrences i content) : KeepsNoCr i content := by
  obtain ⟨new, hnew, h⟩ := h
  rw [editFileTool_of_occurs hocc, updated_map hold hnew,
    encode_eq_some.2 ⟨_, rfl, rfl⟩] at h
  exact no_cr_of_fill_eq
    (toUTF8_ofList_inj.1 (Option.some.inj (Prod.mk.inj h).2))

/-- An edit changes the occurrences alone exactly when the new string can
be written and no line end outside the occurrences has a CR. -/
theorem edit_keeps_rest_iff (hold : i.old_string ≠ [])
    (hocc : i.old_string <:+: readText content) :
    ChangesOnlyOccurrences i content
      ↔ (∃ new : List Char, i.new_string = new.map .scalar)
        ∧ KeepsNoCr i content := by
  constructor
  · intro h
    obtain ⟨new, hnew, -⟩ := id h
    exact ⟨⟨new, hnew⟩, keepsNoCr_of_changesOnly hold hocc h⟩
  · rintro ⟨⟨new, hnew⟩, hcr⟩
    refine ⟨new, hnew, ?_⟩
    rw [editFileTool_of_occurs hocc, updated_map hold hnew,
      encode_eq_some.2 ⟨_, rfl, rfl⟩, fill_eq_of_no_cr hcr]
    rfl

/-- `"a"` for `"b"` in `"xa\n"`. -/
theorem edit_of_lf_file :
    ChangesOnlyOccurrences ⟨[.scalar 'a'], [.scalar 'b'], false⟩ "xa\n" := by
  refine (edit_keeps_rest_iff (by decide) (by decide)).2 ⟨⟨['b'], rfl⟩, ?_⟩
  intro m hm
  simp only [EditInput.cut, show marks "xa\n".toList
    = [.char 'x' (by decide), .char 'a' (by decide), .char '\n' (by decide)]
    from by decide] at hm
  revert hm
  cases m <;> simp [pieces, Mark.reading, EditInput.count, Mark.isCr]

/-- With `"a"` for `"b"` in `"a\r\n"` the CR of the line end is lost. -/
theorem edit_loses_cr :
    ¬ ChangesOnlyOccurrences ⟨[.scalar 'a'], [.scalar 'b'], false⟩
      "a\r\n" := by
  intro h
  have hcr := keepsNoCr_of_changesOnly (by decide) (by decide) h
  exact absurd (hcr .crlf (by decide)) (by decide)

end WeaveRuntime.Devtools
