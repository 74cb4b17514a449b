import Shiftlush.Csv
import Shiftlush.Money
import Shiftlush.Numerals

namespace Shiftlush
namespace Exports

/-!
# The files for the accountant

`core.csv_cells`, and what the invoice export and the account statement write in the same way:
a byte-order mark, semicolons, dates as day, month and year, amounts with a decimal comma.
-/

/-- What a spreadsheet runs as a formula. -/
def formulaStarts : List Char := ['=', '+', '-', '@', '\t', '\r']

/-- `value.startswith(_FORMULA_STARTS)` -/
def isFormula (value : List Char) : Bool := value.head?.any (fun c => decide (c ∈ formulaStarts))

def safeCell (value : List Char) : List Char := if isFormula value then '\'' :: value else value

theorem isFormula_safeCell (value : List Char) : isFormula (safeCell value) = false := by
  unfold safeCell
  split
  · rfl
  · rename_i plain
    exact Bool.eq_false_iff.mpr plain

def bom : Char := Char.ofNat 0xfeff

/-- `csv.writer(buffer, delimiter=";", lineterminator="\r\n")` -/
def semicolon : Csv.Dialect := ⟨';', by decide, by decide, by decide⟩

/-- `_decimal` of both exporters: `f"{value:.2f}".replace(".", ",")` -/
def decimal (value : Cents) : List Char := Numerals.fixedText ',' 2 value

/-- `_date` of both exporters. -/
def date (value : Option Calendar.Date) : List Char := value.elim [] Numerals.dateText

/-! ## What a reader finds in a cell -/

def readDecimal : List Char -> Option Cents := Numerals.readFixed ',' 2

/-- A cell that may be empty. -/
def readOptional {α : Type} (read : List Char -> Option α) (cell : List Char) : Option (Option α) :=
  if cell = [] then some none else (read cell).map some

@[simp] theorem readDecimal_decimal (value : Cents) : readDecimal (decimal value) = some value :=
  Numerals.readFixed_text rfl 2 value

theorem decimal_ne_nil (value : Cents) : decimal value ≠ [] := by
  intro empty
  have read := readDecimal_decimal value
  rw [empty] at read
  cases read

@[simp] theorem readOptional_decimal (value : Cents) : readOptional readDecimal (decimal value) = some (some value) := by
  rw [readOptional, if_neg (decimal_ne_nil value), readDecimal_decimal]
  rfl

@[simp] theorem readOptional_nil {α : Type} (read : List Char -> Option α) : readOptional read [] = some none := rfl

/-- The dates there are: `date.min` and those after it. -/
def IsDate (value : Option Calendar.Date) : Prop := ∀ d, value = some d -> Calendar.firstDate ≤ d

theorem readOptional_date {value : Option Calendar.Date} (isDate : IsDate value) :
    readOptional Numerals.readDate (date value) = some value := by
  cases value with
  | none => rfl
  | some d =>
      have since : (12 : Int) ≤ d.month := Calendar.first_le_iff.mp (isDate d rfl)
      have read : Numerals.readDate (Numerals.dateText d) = some d := Numerals.readDate_text (by omega)
      have nonempty : Numerals.dateText d ≠ [] := by
        intro empty
        rw [empty] at read
        cases read
      rw [date, Option.elim_some, readOptional, if_neg nonempty, read]
      rfl

/-- The rows behind the byte-order mark. -/
def readFile : List Char -> Option (List (List Csv.Field))
  | [] => none
  | first :: text => if first = bom then Csv.read semicolon text else none

def writeFile (rows : List (List Csv.Field)) : List Char := bom :: Csv.write semicolon rows

theorem readFile_writeFile (rows : List (List Csv.Field)) : readFile (writeFile rows) = some rows := by
  rw [writeFile, readFile, if_pos rfl, Csv.read_write]

end Exports
end Shiftlush
