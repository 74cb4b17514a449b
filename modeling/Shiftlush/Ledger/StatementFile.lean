import Shiftlush.Exports
import Shiftlush.Ledger.Statement

namespace Shiftlush
namespace Ledger

/-!
# The statement as a file

`statement_csv`: the opening, a row for each movement, the closing.  What a reader of the
file finds in it is the statement, amount for amount, and the figures add up in the file alone.
-/

open Exports

/-- The days that are dates. -/
def IsDay (day : Date) : Prop := Calendar.firstDate.ordinal ≤ day

/-- `templates/ledger/statement_label.txt` -/
inductive Label where
  | opening
  | closing
  | reversal

def label : Label -> List Char
  | .opening => "Devir bakiyesi".toList
  | .closing => "Kapanış bakiyesi".toList
  | .reversal => "İptal".toList

/-- `templates/ledger/statement_header.txt` -/
def header : List Csv.Field :=
  ["Tarih".toList, "Açıklama".toList, "Borç".toList, "Alacak".toList, "Bakiye".toList]

section Writing

-- the text typed for a movement
variable (descriptionOf : Id -> List Char)

/-- `_description` -/
def description (row : StatementRow) : List Char :=
  if row.isReversal then label .reversal ++ (':' :: ' ' :: descriptionOf row.movement) else descriptionOf row.movement

def csvRow (row : StatementRow) : List Csv.Field :=
  [date (some (Calendar.ofOrdinal row.date)), safeCell (description descriptionOf row), decimal row.debit,
    decimal row.credit, decimal row.balance]

def statementTable (s : Statement) : List (List Csv.Field) :=
  header :: [date (s.start.map Calendar.ofOrdinal), label .opening, [], [], decimal s.opening] ::
    (s.rows.map (csvRow descriptionOf) ++
      [[date (s.finish.map Calendar.ofOrdinal), label .closing, decimal s.totalDebit, decimal s.totalCredit,
        decimal s.closing]])

/-- `statement_csv` -/
def statementCsv (s : Statement) : List Char := writeFile (statementTable descriptionOf s)

end Writing

/-! ## Reading the file -/

structure SheetLine where
  date : Option Calendar.Date
  text : List Char
  debit : Option Cents
  credit : Option Cents
  balance : Cents
  deriving DecidableEq

def readLine : List Csv.Field -> Option SheetLine
  | [day, text, debit, credit, balance] => do
      let day ← readOptional Numerals.readDate day
      let debit ← readOptional readDecimal debit
      let credit ← readOptional readDecimal credit
      let balance ← readDecimal balance
      return ⟨day, text, debit, credit, balance⟩
  | _ => none

/-- The lines under the header. -/
def readStatement (file : List Char) : Option (List SheetLine) := do
  let rows ← readFile file
  (rows.drop 1).mapM readLine

def openingLine (s : Statement) : SheetLine :=
  ⟨s.start.map Calendar.ofOrdinal, label .opening, none, none, s.opening⟩

def movementLine (descriptionOf : Id -> List Char) (row : StatementRow) : SheetLine :=
  ⟨some (Calendar.ofOrdinal row.date), safeCell (description descriptionOf row), some row.debit, some row.credit,
    row.balance⟩

def closingLine (s : Statement) : SheetLine :=
  ⟨s.finish.map Calendar.ofOrdinal, label .closing, some s.totalDebit, some s.totalCredit, s.closing⟩

theorem isDate_ofOrdinal (day : Option Date) : IsDate (day.map Calendar.ofOrdinal) := by
  intro d same
  cases day with
  | none => cases same
  | some day =>
      cases same
      exact Calendar.firstDate_le_ofOrdinal day

@[simp] theorem readOptional_dateOf (day : Option Date) :
    readOptional Numerals.readDate (date (day.map Calendar.ofOrdinal)) = some (day.map Calendar.ofOrdinal) :=
  readOptional_date (isDate_ofOrdinal day)

@[simp] theorem readOptional_someDate (day : Date) :
    readOptional Numerals.readDate (date (some (Calendar.ofOrdinal day))) = some (some (Calendar.ofOrdinal day)) :=
  readOptional_dateOf (some day)

theorem readLine_csvRow (descriptionOf : Id -> List Char) (row : StatementRow) :
    readLine (csvRow descriptionOf row) = some (movementLine descriptionOf row) := by
  simp [readLine, csvRow, movementLine]

theorem mapM_readLine (descriptionOf : Id -> List Char) (rows : List StatementRow) (later : List (List Csv.Field)) :
    (rows.map (csvRow descriptionOf) ++ later).mapM readLine =
      (later.mapM readLine).map (fun lines => rows.map (movementLine descriptionOf) ++ lines) := by
  induction rows with
  | nil => simp
  | cons row rows ih =>
      rw [List.map_cons, List.cons_append, List.mapM_cons, readLine_csvRow, ih]
      cases later.mapM readLine <;> rfl

theorem readStatement_statementCsv (descriptionOf : Id -> List Char) (s : Statement) :
    readStatement (statementCsv descriptionOf s) =
      some (openingLine s :: (s.rows.map (movementLine descriptionOf) ++ [closingLine s])) := by
  have opening : readLine [date (s.start.map Calendar.ofOrdinal), label .opening, [], [], decimal s.opening] =
      some (openingLine s) := by
    simp [readLine, openingLine]
  have closing : readLine [date (s.finish.map Calendar.ofOrdinal), label .closing, decimal s.totalDebit,
      decimal s.totalCredit, decimal s.closing] = some (closingLine s) := by
    simp [readLine, closingLine]
  unfold readStatement statementCsv
  rw [readFile_writeFile]
  simp only [Option.bind_eq_bind, Option.bind_some, statementTable, List.drop_one, List.tail_cons, List.mapM_cons,
    opening, mapM_readLine, closing, List.mapM_nil]
  rfl

/-! ## What the file says -/

/-- The balances of a file run on: each is the one before it and what its line adds. -/
def runsOn : Cents -> List SheetLine -> Bool
  | _, [] => true
  | balance, line :: lines =>
      decide (line.balance = balance + line.debit.getD 0 - line.credit.getD 0) && runsOn line.balance lines

/-- A file that can be checked without the books. -/
structure AddsUp (opening : SheetLine) (lines : List SheetLine) (closing : SheetLine) : Prop where
  runs : runsOn opening.balance lines = true
  last : closing.balance = ((opening :: lines).getLast (List.cons_ne_nil _ _)).balance
  debits : closing.debit = some (lines.map (fun line => line.debit.getD 0)).sum
  credits : closing.credit = some (lines.map (fun line => line.credit.getD 0)).sum
  balance : closing.balance = opening.balance + closing.debit.getD 0 - closing.credit.getD 0
  safe : ∀ line ∈ lines, isFormula line.text = false

section Figures

variable (descriptionOf : Id -> List Char)

theorem runsOn_rowsFrom (balance : Cents) (movements : Rows Movement) :
    runsOn balance ((rowsFrom balance movements).map (movementLine descriptionOf)) = true := by
  induction movements generalizing balance with
  | nil => rfl
  | cons r movements ih =>
      rw [rowsFrom_cons, List.map_cons, runsOn, Bool.and_eq_true]
      exact ⟨decide_eq_true rfl, ih _⟩

theorem getLast_rowsFrom (balance : Cents) (movements : Rows Movement) (line : SheetLine) (starts : line.balance = balance) :
    ((line :: (rowsFrom balance movements).map (movementLine descriptionOf)).getLast (List.cons_ne_nil _ _)).balance =
      balance + statementSum movements := by
  induction movements generalizing balance line with
  | nil => simp [rowsFrom, statementSum, starts]
  | cons r movements ih =>
      have rest := ih (statementRow balance r).balance (movementLine descriptionOf (statementRow balance r)) rfl
      rw [statementSum_cons, ← add_assoc, ← statementRow_balance, ← rest]
      rfl

theorem sum_debits (rows : List StatementRow) :
    ((rows.map (movementLine descriptionOf)).map (fun line => line.debit.getD 0)).sum = (rows.map (·.debit)).sum := by
  rw [List.map_map]
  rfl

theorem sum_credits (rows : List StatementRow) :
    ((rows.map (movementLine descriptionOf)).map (fun line => line.credit.getD 0)).sum = (rows.map (·.credit)).sum := by
  rw [List.map_map]
  rfl

theorem sum_sub (rows : List StatementRow) : (rows.map (fun row => row.debit - row.credit)).sum =
    (rows.map (·.debit)).sum - (rows.map (·.credit)).sum := by
  induction rows with
  | nil => rfl
  | cons row rows ih =>
      simp only [List.map_cons, List.sum_cons, ih]
      exact (add_sub_add_comm _ _ _ _).symm

theorem safe_movementLine (rows : List StatementRow) :
    ∀ line ∈ rows.map (movementLine descriptionOf), isFormula line.text = false := by
  intro line mem
  rcases List.mem_map.mp mem with ⟨row, _, rfl⟩
  exact isFormula_safeCell _

/-- The file of the rows that movements add to a balance. -/
theorem addsUp_rowsFrom (s : Statement) (movements : Rows Movement) (rows : s.rows = rowsFrom s.opening movements)
    (closes : s.closing = s.opening + statementSum movements) :
    AddsUp (openingLine s) (s.rows.map (movementLine descriptionOf)) (closingLine s) := by
  have sum := sum_sub s.rows
  rw [rows, rowsFrom_sum, ← rows] at sum
  have last := getLast_rowsFrom descriptionOf s.opening movements (openingLine s) rfl
  refine ⟨?_, ?_, ?_, ?_, ?_, safe_movementLine descriptionOf s.rows⟩
  · rw [rows]
    exact runsOn_rowsFrom descriptionOf s.opening movements
  · simp only [rows, last]
    exact closes
  · rw [sum_debits]
    rfl
  · rw [sum_credits]
    rfl
  · have carried : s.closing = s.opening + s.totalDebit - s.totalCredit := by
      rw [closes, sum, ← add_sub_assoc]
      rfl
    exact carried

/-- What a line says of a movement. -/
def lineOf (r : Id × Movement) : Option Date × List Char × Option Cents × Option Cents :=
  (some r.2.date, safeCell (if r.2.reverses.isSome then label .reversal ++ (':' :: ' ' :: descriptionOf r.1)
    else descriptionOf r.1), some r.2.debit, some r.2.credit)

/-- The rows keep the days, the texts and the amounts of the movements, in their order. -/
theorem map_rowsFrom (balance : Cents) {movements : Rows Movement} (days : ∀ r ∈ movements, IsDay r.2.date) :
    ((rowsFrom balance movements).map (movementLine descriptionOf)).map
        (fun line => (line.date.map Calendar.Date.ordinal, line.text, line.debit, line.credit)) =
      movements.map (lineOf descriptionOf) := by
  induction movements generalizing balance with
  | nil => rfl
  | cons r movements ih =>
      have rest := ih (statementRow balance r).balance (fun r mem => days r (List.mem_cons_of_mem _ mem))
      have day := Calendar.ordinal_ofOrdinal (days r List.mem_cons_self)
      rw [rowsFrom_cons, List.map_cons, List.map_cons, List.map_cons, rest]
      simp only [movementLine, statementRow, description, lineOf, Option.map_some, day]
      rfl

end Figures

variable (createdAt : Id -> Int) (descriptionOf : Id -> List Char)

/-- A statement's file, read back, has a line for each movement of the range in the order of the
books with its date and amounts, and between the balances carried in and out its figures add up. -/
theorem statement_file_reads_back (v : Books) (account : Id) (start finish : Option Date)
    (days : ∀ r ∈ v.movements, IsDay r.2.date) :
    ∃ opening lines closing,
      readStatement (statementCsv descriptionOf (statementRows createdAt v account start finish)) =
        some (opening :: (lines ++ [closing])) ∧ AddsUp opening lines closing ∧
      opening.balance = start.elim 0 (v.accountBalanceBefore account) ∧
      lines.map (fun line => (line.date.map Calendar.Date.ordinal, line.text, line.debit, line.credit)) =
        (List.insertionSort (listedBefore createdAt) (v.movementsIn account start finish)).map (lineOf descriptionOf) := by
  have loop := foldl_statementLoop (List.insertionSort (listedBefore createdAt) (v.movementsIn account start finish))
    (start.elim 0 (v.accountBalanceBefore account)) []
  rw [List.nil_append] at loop
  have rows : (statementRows createdAt v account start finish).rows = _ := congrArg Prod.snd loop
  have closes : (statementRows createdAt v account start finish).closing = _ := congrArg Prod.fst loop
  have listed : ∀ r ∈ List.insertionSort (listedBefore createdAt) (v.movementsIn account start finish),
      IsDay r.2.date := by
    intro r mem
    have stored : r ∈ v.movementsIn account start finish := (List.mem_insertionSort _).mp mem
    exact days r (List.mem_of_mem_filter stored)
  refine ⟨_, _, _, readStatement_statementCsv descriptionOf _, addsUp_rowsFrom descriptionOf _ _ rows closes, rfl, ?_⟩
  rw [rows]
  exact map_rowsFrom descriptionOf _ listed

/-- An invoice and its cancellation, the first of which somebody described as a formula. -/
def describedBooks : Books where
  today := 738000
  companies := []
  accounts := []
  cashAccounts := []
  invoices := []
  documents := []
  applications := []
  movements :=
    [(1, ⟨1, some (7, .debit), none, 737990, 125050, "TRY", .invoice, ⟨.invoiceDraft, 3⟩, none⟩),
      (2, ⟨1, some (7, .credit), none, 737995, 125050, "TRY", .invoiceCancel, ⟨.invoiceDraft, 3⟩, some 1⟩)]
  counters := fun _ _ => 0

theorem statement_file_reads_back_described : ∃ opening lines closing,
    readStatement (statementCsv (fun _ => "=1+1".toList) (statementRows Int.ofNat describedBooks 7 (some 737000) none)) =
      some (opening :: (lines ++ [closing])) ∧ AddsUp opening lines closing := by
  have days : ∀ r ∈ describedBooks.movements, IsDay r.2.date := by
    intro r mem
    unfold IsDay
    simp only [describedBooks, List.mem_cons, List.not_mem_nil, or_false] at mem
    rcases mem with rfl | rfl <;> decide
  rcases statement_file_reads_back Int.ofNat (fun _ => "=1+1".toList) describedBooks 7 (some 737000) none days with
    ⟨opening, lines, closing, read, adds, _⟩
  exact ⟨opening, lines, closing, read, adds⟩

end Ledger
end Shiftlush
