import Mathlib.Data.List.Basic
import Mathlib.Tactic.Common

namespace Shiftlush
namespace Csv

/-!
# Delimited text files

`csv.writer` and `csv.reader` over one dialect: a delimiter, the double quote, which is doubled
inside a quoted field, quotes only around the fields that need them, and lines that end in a
carriage return and a newline.  The reader is the state machine of the standard library; it is
what says what a written file means.
-/

/-- A dialect, but for its delimiter the one of the standard library. -/
structure Dialect where
  delimiter : Char
  delimiter_ne_quote : delimiter ≠ '"'
  delimiter_ne_return : delimiter ≠ '\r'
  delimiter_ne_newline : delimiter ≠ '\n'

abbrev Field := List Char

variable (d : Dialect)

/-! ## The writer -/

/-- What makes the writer quote a field. -/
def special (c : Char) : Bool := decide (c = d.delimiter ∨ c = '"' ∨ c = '\n' ∨ c = '\r')

def doubled (field : Field) : List Char := field.flatMap (fun c => if c = '"' then ['"', '"'] else [c])

def quoted (field : Field) : List Char := '"' :: (doubled field ++ ['"'])

def writeField (field : Field) : List Char := if field.any (special d) then quoted field else field

/-- The fields of a row after the first, each behind a delimiter. -/
def writeRest : List Field -> List Char
  | [] => ['\r', '\n']
  | field :: fields => d.delimiter :: (writeField d field ++ writeRest fields)

/-- `writerow`: a row of one empty field is quoted, as it would otherwise read as no field. -/
def writeRow : List Field -> List Char
  | [] => ['\r', '\n']
  | [[]] => '"' :: '"' :: ['\r', '\n']
  | field :: fields => writeField d field ++ writeRest d fields

def write (rows : List (List Field)) : List Char := rows.flatMap (writeRow d)

/-! ## The reader -/

inductive Mode where
  | startRecord
  | startField
  | inField
  | inQuoted
  | quoteInQuoted
  | eatNewline
  deriving DecidableEq, Repr

/-- What has been read: the rows, the fields of the row that is open, the characters of the
field that is open. -/
structure Scan where
  mode : Mode
  field : Field
  fields : List Field
  rows : List (List Field)
  deriving DecidableEq, Repr

def isNewline (c : Char) : Bool := decide (c = '\n' ∨ c = '\r')

namespace Scan

def add (s : Scan) (c : Char) (mode : Mode) : Scan := { s with mode := mode, field := s.field ++ [c] }

def save (s : Scan) (mode : Mode) : Scan := { s with mode := mode, field := [], fields := s.fields ++ [s.field] }

def emit (s : Scan) : Scan := { s with mode := .startRecord, fields := [], rows := s.rows ++ [s.fields] }

def startOfField (s : Scan) (c : Char) : Scan :=
  if isNewline c then s.save .eatNewline
  else if c = '"' then { s with mode := .inQuoted }
  else if c = d.delimiter then s.save .startField
  else s.add c .inField

/-- `parse_process_char`: one character, or the error of text behind the end of a line. -/
def feed (s : Scan) (c : Char) : Option Scan :=
  match s.mode with
  | .startRecord => if isNewline c then some { s with mode := .eatNewline } else some (s.startOfField d c)
  | .startField => some (s.startOfField d c)
  | .inField =>
      if isNewline c then some (s.save .eatNewline)
      else if c = d.delimiter then some (s.save .startField)
      else some (s.add c .inField)
  | .inQuoted => if c = '"' then some { s with mode := .quoteInQuoted } else some (s.add c .inQuoted)
  | .quoteInQuoted =>
      if c = '"' then some (s.add c .inQuoted)
      else if c = d.delimiter then some (s.save .startField)
      else if isNewline c then some (s.save .eatNewline)
      else some (s.add c .inField)
  | .eatNewline => if isNewline c then some s else none

/-- `parse_process_char` at the end of a line: a quoted field goes on behind it. -/
def endLine (s : Scan) : Scan :=
  match s.mode with
  | .startRecord | .eatNewline => s.emit
  | .startField | .inField | .quoteInQuoted => (s.save .startRecord).emit
  | .inQuoted => s

end Scan

/-- A character, and the end of the line where it is a newline. -/
def readChar (s : Scan) (c : Char) : Option Scan :=
  (s.feed d c).map (fun s' => if c = '\n' then s'.endLine else s')

def scan : Scan -> List Char -> Option Scan
  | s, [] => some s
  | s, c :: text => (readChar d s c).bind (fun s' => scan s' text)

/-- The rows, with the one that the end of the file cuts off. -/
def Scan.finish (s : Scan) : List (List Field) :=
  match s.mode with
  | .startRecord => s.rows
  | .inQuoted => (s.save .startRecord).emit.rows
  | _ => s.endLine.rows

def read (text : List Char) : Option (List (List Field)) := (scan d ⟨.startRecord, [], [], []⟩ text).map Scan.finish

/-! ## Reading what was written -/

variable {d}

theorem scan_cons {s s' : Scan} {c : Char} (step : readChar d s c = some s') (text : List Char) :
    scan d s (c :: text) = scan d s' text := by
  rw [scan, step]
  rfl

theorem doubled_cons (c : Char) (field : Field) :
    doubled (c :: field) = (if c = '"' then ['"', '"'] else [c]) ++ doubled field := List.flatMap_cons

/-- Inside quotes every character is one of the field, line ends too. -/
theorem scan_doubled (field sofar : Field) (fields : List Field) (rows : List (List Field)) (rest : List Char) :
    scan d ⟨.inQuoted, sofar, fields, rows⟩ (doubled field ++ rest) =
      scan d ⟨.inQuoted, sofar ++ field, fields, rows⟩ rest := by
  induction field generalizing sofar with
  | nil => rw [List.append_nil]; rfl
  | cons c field ih =>
      have whole : sofar ++ c :: field = sofar ++ [c] ++ field := by simp
      rw [doubled_cons, whole, ← ih (sofar ++ [c])]
      by_cases quote : c = '"'
      · subst quote
        have first : readChar d ⟨.inQuoted, sofar, fields, rows⟩ '"' = some ⟨.quoteInQuoted, sofar, fields, rows⟩ := by
          simp [readChar, Scan.feed]
        have second : readChar d ⟨.quoteInQuoted, sofar, fields, rows⟩ '"' =
            some ⟨.inQuoted, sofar ++ ['"'], fields, rows⟩ := by
          simp [readChar, Scan.feed, Scan.add]
        have shape : ['"', '"'] ++ doubled field ++ rest = '"' :: '"' :: (doubled field ++ rest) := rfl
        rw [if_pos rfl, shape, scan_cons first, scan_cons second]
      · have step : readChar d ⟨.inQuoted, sofar, fields, rows⟩ c =
            some ⟨.inQuoted, sofar ++ [c], fields, rows⟩ := by
          simp [readChar, Scan.feed, quote, Scan.add, Scan.endLine]
        rw [if_neg quote, List.cons_append, List.cons_append, scan_cons step]
        rfl

/-- Where a field may begin. -/
def Mode.begins (mode : Mode) : Prop := mode = .startRecord ∨ mode = .startField

theorem scan_quoted {mode : Mode} (begins : mode.begins) (field : Field) (fields : List Field)
    (rows : List (List Field)) (rest : List Char) :
    scan d ⟨mode, [], fields, rows⟩ (quoted field ++ rest) = scan d ⟨.quoteInQuoted, field, fields, rows⟩ rest := by
  have first : readChar d ⟨mode, [], fields, rows⟩ '"' = some ⟨.inQuoted, [], fields, rows⟩ := by
    rcases begins with rfl | rfl <;> simp [readChar, Scan.feed, Scan.startOfField, isNewline]
  have last : readChar d ⟨.inQuoted, field, fields, rows⟩ '"' = some ⟨.quoteInQuoted, field, fields, rows⟩ := by
    simp [readChar, Scan.feed]
  rw [quoted, List.cons_append, scan_cons first, List.append_assoc, scan_doubled, List.nil_append,
    List.singleton_append, scan_cons last]

theorem not_special {c : Char} (plain : special d c = false) :
    c ≠ d.delimiter ∧ c ≠ '"' ∧ c ≠ '\n' ∧ isNewline c = false := by
  unfold special at plain
  have apart := of_decide_eq_false plain
  push Not at apart
  refine ⟨apart.1, apart.2.1, apart.2.2.1, ?_⟩
  simp [isNewline, apart]

/-- Characters that need no quotes, in a field that has begun. -/
theorem scan_plain {field : Field} (plain : field.any (special d) = false) (sofar : Field) (fields : List Field)
    (rows : List (List Field)) (rest : List Char) :
    scan d ⟨.inField, sofar, fields, rows⟩ (field ++ rest) =
      scan d ⟨.inField, sofar ++ field, fields, rows⟩ rest := by
  induction field generalizing sofar with
  | nil => rw [List.append_nil]; rfl
  | cons c field ih =>
      rw [List.any_cons, Bool.or_eq_false_iff] at plain
      rcases not_special plain.1 with ⟨noDelimiter, noQuote, noLine, noEnd⟩
      have step : readChar d ⟨.inField, sofar, fields, rows⟩ c = some ⟨.inField, sofar ++ [c], fields, rows⟩ := by
        simp [readChar, Scan.feed, noEnd, noDelimiter, noLine, Scan.add]
      rw [List.cons_append, scan_cons step, ih plain.2, List.append_assoc, List.singleton_append]

/-- What a field that needs no quotes, and is not empty, leaves. -/
theorem scan_first {mode : Mode} (begins : mode.begins) {c : Char} {field : Field}
    (plain : (c :: field).any (special d) = false) (fields : List Field) (rows : List (List Field)) (rest : List Char) :
    scan d ⟨mode, [], fields, rows⟩ (c :: field ++ rest) = scan d ⟨.inField, c :: field, fields, rows⟩ rest := by
  rw [List.any_cons, Bool.or_eq_false_iff] at plain
  rcases not_special plain.1 with ⟨noDelimiter, noQuote, noLine, noEnd⟩
  have step : readChar d ⟨mode, [], fields, rows⟩ c = some ⟨.inField, [c], fields, rows⟩ := by
    rcases begins with rfl | rfl <;>
      simp [readChar, Scan.feed, Scan.startOfField, noEnd, noQuote, noDelimiter, noLine, Scan.add]
  rw [List.cons_append, scan_cons step, scan_plain plain.2]
  rfl

/-- Where a field may end. -/
def Mode.ends (mode : Mode) : Prop := mode = .inField ∨ mode = .quoteInQuoted ∨ mode = .startField

theorem read_delimiter {mode : Mode} (ends : mode.ends) (field : Field) (fields : List Field) (rows : List (List Field)) :
    readChar d ⟨mode, field, fields, rows⟩ d.delimiter = some ⟨.startField, [], fields ++ [field], rows⟩ := by
  have noEnd : isNewline d.delimiter = false := by
    simp [isNewline, d.delimiter_ne_newline, d.delimiter_ne_return]
  rcases ends with rfl | rfl | rfl <;>
    simp [readChar, Scan.feed, Scan.startOfField, noEnd, d.delimiter_ne_quote, d.delimiter_ne_newline, Scan.save]

theorem read_empty_first (rows : List (List Field)) :
    readChar d ⟨.startRecord, [], [], rows⟩ d.delimiter = some ⟨.startField, [], [[]], rows⟩ := by
  have noEnd : isNewline d.delimiter = false := by
    simp [isNewline, d.delimiter_ne_newline, d.delimiter_ne_return]
  simp [readChar, Scan.feed, Scan.startOfField, noEnd, d.delimiter_ne_quote, d.delimiter_ne_newline, Scan.save]

theorem scan_end {mode : Mode} (ends : mode.ends) (field : Field) (fields : List Field) (rows : List (List Field))
    (rest : List Char) : scan d ⟨mode, field, fields, rows⟩ ('\r' :: '\n' :: rest) =
      scan d ⟨.startRecord, [], [], rows ++ [fields ++ [field]]⟩ rest := by
  have returned : readChar d ⟨mode, field, fields, rows⟩ '\r' = some ⟨.eatNewline, [], fields ++ [field], rows⟩ := by
    have apart := d.delimiter_ne_return.symm
    rcases ends with rfl | rfl | rfl <;>
      simp [readChar, Scan.feed, Scan.startOfField, isNewline, apart, Scan.save]
  have newline : readChar d ⟨.eatNewline, [], fields ++ [field], rows⟩ '\n' =
      some ⟨.startRecord, [], [], rows ++ [fields ++ [field]]⟩ := by
    simp [readChar, Scan.feed, isNewline, Scan.endLine, Scan.emit]
  rw [scan_cons returned, scan_cons newline]

/-- A field is read back as it was, but for an empty one, of which nothing is written. -/
theorem scan_field {mode : Mode} (begins : mode.begins) (field : Field) (fields : List Field) (rows : List (List Field))
    (rest : List Char) : (field = [] ∧ writeField d field = []) ∨ ∃ mode', Mode.ends mode' ∧
      scan d ⟨mode, [], fields, rows⟩ (writeField d field ++ rest) = scan d ⟨mode', field, fields, rows⟩ rest := by
  unfold writeField
  by_cases needs : field.any (special d) = true
  · rw [if_pos needs]
    exact Or.inr ⟨.quoteInQuoted, Or.inr (Or.inl rfl), scan_quoted begins field fields rows rest⟩
  · rw [if_neg needs]
    cases field with
    | nil => exact Or.inl ⟨rfl, rfl⟩
    | cons c field =>
        exact Or.inr ⟨.inField, Or.inl rfl, scan_first begins (Bool.eq_false_iff.mpr needs) fields rows rest⟩

/-- A field behind a delimiter is read back. -/
theorem scan_startField (field : Field) (fields : List Field) (rows : List (List Field)) (rest : List Char) :
    ∃ mode', Mode.ends mode' ∧ scan d ⟨.startField, [], fields, rows⟩ (writeField d field ++ rest) =
      scan d ⟨mode', field, fields, rows⟩ rest := by
  rcases scan_field (d := d) (Or.inr rfl) field fields rows rest with ⟨rfl, nothing⟩ | found
  · refine ⟨.startField, Or.inr (Or.inr rfl), ?_⟩
    rw [nothing]
    rfl
  · exact found

theorem scan_writeRest (more : List Field) {mode : Mode} (ends : mode.ends) (field : Field) (fields : List Field)
    (rows : List (List Field)) (rest : List Char) : scan d ⟨mode, field, fields, rows⟩ (writeRest d more ++ rest) =
      scan d ⟨.startRecord, [], [], rows ++ [fields ++ field :: more]⟩ rest := by
  induction more generalizing mode field fields with
  | nil => exact scan_end ends field fields rows rest
  | cons next more ih =>
      rcases scan_startField next (fields ++ [field]) rows (writeRest d more ++ rest) with ⟨mode', ends', read⟩
      rw [writeRest, List.cons_append, scan_cons (read_delimiter ends field fields rows), List.append_assoc, read,
        ih ends' next (fields ++ [field])]
      simp

theorem scan_writeRow (row : List Field) (rows : List (List Field)) (rest : List Char) :
    scan d ⟨.startRecord, [], [], rows⟩ (writeRow d row ++ rest) =
      scan d ⟨.startRecord, [], [], rows ++ [row]⟩ rest := by
  match row with
  | [] =>
      have returned : readChar d ⟨.startRecord, [], [], rows⟩ '\r' = some ⟨.eatNewline, [], [], rows⟩ := by
        simp [readChar, Scan.feed, isNewline]
      have newline : readChar d ⟨.eatNewline, [], [], rows⟩ '\n' = some ⟨.startRecord, [], [], rows ++ [[]]⟩ := by
        simp [readChar, Scan.feed, isNewline, Scan.endLine, Scan.emit]
      rw [writeRow, List.cons_append, scan_cons returned, List.cons_append, scan_cons newline]
      rfl
  | [[]] =>
      have read := scan_quoted (d := d) (Or.inl rfl) [] [] rows ('\r' :: '\n' :: rest)
      exact read.trans (scan_end (Or.inr (Or.inl rfl)) [] [] rows rest)
  | [] :: field :: fields =>
      rcases scan_startField field [[]] rows (writeRest d fields ++ rest) with ⟨mode', ends', read⟩
      have shape : writeRow d ([] :: field :: fields) ++ rest =
          d.delimiter :: (writeField d field ++ (writeRest d fields ++ rest)) := by
        have empty : writeField d [] = [] := rfl
        change writeField d [] ++ (d.delimiter :: (writeField d field ++ writeRest d fields)) ++ rest = _
        rw [empty, List.nil_append, List.cons_append, List.append_assoc]
      rw [shape, scan_cons (read_empty_first rows), read, scan_writeRest fields ends' field [[]] rows rest]
      rfl
  | (c :: first) :: fields =>
      have shape : writeRow d ((c :: first) :: fields) = writeField d (c :: first) ++ writeRest d fields := rfl
      rw [shape, List.append_assoc]
      rcases scan_field (d := d) (Or.inl rfl) (c :: first) [] rows (writeRest d fields ++ rest) with
        ⟨impossible, _⟩ | ⟨mode', ends', read⟩
      · cases impossible
      · rw [read, scan_writeRest fields ends' (c :: first) [] rows rest]
        rfl

theorem scan_write (rows sofar : List (List Field)) : scan d ⟨.startRecord, [], [], sofar⟩ (write d rows) =
    some ⟨.startRecord, [], [], sofar ++ rows⟩ := by
  induction rows generalizing sofar with
  | nil => rw [List.append_nil]; rfl
  | cons row rows ih =>
      rw [write, List.flatMap_cons, scan_writeRow]
      exact (ih (sofar ++ [row])).trans (by simp)

/-- Every file is read back as the rows it was written from, whatever their fields hold. -/
theorem read_write (rows : List (List Field)) : read d (write d rows) = some rows := by
  unfold read
  rw [scan_write]
  rfl

end Csv
end Shiftlush
