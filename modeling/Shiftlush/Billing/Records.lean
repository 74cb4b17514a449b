import Shiftlush.Calendar
import Shiftlush.Ledger.Records

namespace Shiftlush
namespace Billing

open Calendar (Date)
open Ledger (InvoiceStatus)

/-!
# Invoice drafts

The two tables of `apps.billing.models` and the arithmetic of
`apps.billing.money`.  Prices are in cents and quantities in ten-thousandths, as
their columns keep them.
-/

inductive InvoiceLineKind where
  | contractFee
  | elevatorFee
  | fault
  | manual
  deriving DecidableEq, Repr

/-- What a line says: a template of `billing/lines` with its context, or what
the office typed. -/
inductive Description where
  | fee (elevator : Option Nat) (periodStart periodEnd : Date) (months coveredDays periodDays : Nat)
  | repair (fault : Nat) (partsUsed : String)
  | typed (text : String)
  deriving DecidableEq

/-- "The exact fraction a prorated fee line bills": its three columns, which are
all filled or all null. -/
structure Proration where
  months : Nat
  coveredDays : Nat
  periodDays : Nat
  positive : 0 < periodDays
  deriving DecidableEq

/-! ## `apps.billing.money` -/

/-- The decimals of a quantity. -/
def quantityStep : Nat := 10000

/-- `prorated_quantity` -/
def proratedQuantity (p : Proration) : Int :=
  if p.periodDays ≤ p.coveredDays then p.months * quantityStep
  else roundHalfUp (p.months * p.coveredDays * quantityStep) p.periodDays

/-- `line_amount`: "zero for a line still waiting for its price". -/
def lineAmount (quantity : Int) : Option Cents -> Cents
  | none => 0
  | some unitPrice => roundHalfUp (quantity * unitPrice) quantityStep

/-- `prorated_amount` -/
def proratedAmount (p : Proration) : Option Cents -> Cents
  | none => 0
  | some unitPrice => roundHalfUp (unitPrice * p.months * p.coveredDays) p.periodDays

/-! ## Lines -/

structure InvoiceLine where
  draft : Nat
  kind : InvoiceLineKind
  description : Description
  elevator : Option Nat
  fault : Option Nat
  faultReleased : Bool
  quantity : Int
  proration : Option Proration
  unitPrice : Option Cents
  amount : Cents
  needsPrice : Bool
  position : Nat
  isDeleted : Bool
  deriving DecidableEq

namespace InvoiceLine

def isLive (line : InvoiceLine) : Bool := !line.isDeleted

/-- `services.line_amount`: "the fraction if it is prorated". -/
def lineAmount (line : InvoiceLine) : Cents :=
  match line.proration with
  | some p => proratedAmount p line.unitPrice
  | none => Billing.lineAmount line.quantity line.unitPrice

/-- The line, holding the fault it bills. -/
def bills (line : InvoiceLine) (fault : Nat) : Bool :=
  decide (line.fault = some fault) && !line.faultReleased && line.isLive

def deleted (line : InvoiceLine) : InvoiceLine := { line with isDeleted := true }

def released (line : InvoiceLine) : InvoiceLine := { line with faultReleased := true }

end InvoiceLine

/-! ## Drafts -/

structure InvoiceDraft where
  contract : Nat
  customer : Nat
  periodStart : Date
  periodEnd : Date
  status : InvoiceStatus
  currency : String
  /-- Hundredths of a percent. -/
  vatRate : Int
  subtotal : Cents
  vatAmount : Cents
  total : Cents
  invoiceNumber : String
  invoiceDate : Option Date
  paidOn : Option Date
  cancelReason : String
  notes : String
  deriving DecidableEq

namespace InvoiceDraft

/-- A cancelled draft "gives the period back". -/
def isLive (draft : InvoiceDraft) : Bool := decide (draft.status ≠ .cancelled)

def sums (draft : InvoiceDraft) : Cents × Cents × Cents := (draft.subtotal, draft.vatAmount, draft.total)

def withSums (sums : Cents × Cents × Cents) (draft : InvoiceDraft) : InvoiceDraft :=
  { draft with subtotal := sums.1, vatAmount := sums.2.1, total := sums.2.2 }

def issued (number : String) (date : Date) (draft : InvoiceDraft) : InvoiceDraft :=
  { draft with status := .issued, invoiceNumber := number, invoiceDate := some date }

def paid (day : Option Date) (draft : InvoiceDraft) : InvoiceDraft :=
  { draft with status := .paid, paidOn := day }

def cancelled (reason : String) (draft : InvoiceDraft) : InvoiceDraft :=
  { draft with status := .cancelled, cancelReason := reason }

end InvoiceDraft

/-! ## The tables -/

structure Bills where
  drafts : Rows InvoiceDraft
  lines : Rows InvoiceLine
  deriving DecidableEq

namespace Bills

def linesOf (v : Bills) (draft : Nat) : Rows InvoiceLine :=
  v.lines.filter (fun r => decide (r.2.draft = draft))

/-- `InvoiceLine.objects.filter(draft=draft)` finds no deleted line. -/
def liveLines (v : Bills) (draft : Nat) : Rows InvoiceLine :=
  (v.linesOf draft).filter (fun r => r.2.isLive)

def amounts (v : Bills) (draft : Nat) : List Cents := (v.liveLines draft).map (·.2.amount)

/-- Some line waits for a price. -/
def needsPrice (v : Bills) (draft : Nat) : Bool := (v.liveLines draft).any (·.2.needsPrice)

def lastPosition (v : Bills) (draft : Nat) : Nat :=
  ((v.liveLines draft).map (·.2.position)).foldl max 0

/-- Another issued invoice carries the number. -/
def numberTaken (v : Bills) (id : Nat) (number : String) : Bool :=
  v.drafts.any (fun r => decide (r.1 ≠ id ∧ r.2.invoiceNumber = number) && r.2.status.payable)

def updateDraft (id : Nat) (f : InvoiceDraft -> InvoiceDraft) (v : Bills) : Bills :=
  { v with drafts := v.drafts.update id f }

def updateLine (id : Nat) (f : InvoiceLine -> InvoiceLine) (v : Bills) : Bills :=
  { v with lines := v.lines.update id f }

def insertLine (id : Nat) (line : InvoiceLine) (v : Bills) : Bills :=
  { v with lines := v.lines.insert id line }

end Bills

/-! ## Columns -/

/-- `quantity`, `unit_price`, `amount` and `position` of a line. -/
def InvoiceLine.inColumns (line : InvoiceLine) : Bool :=
  decide (line.quantity.natAbs < 10 ^ 12) && line.unitPrice.all (fun unitPrice => decide (unitPrice.natAbs < 10 ^ 12)) &&
    decide (line.amount.natAbs < 10 ^ 14) && decide (line.position < 2 ^ 15)

/-- `subtotal`, `vat_amount` and `total` of a draft. -/
def InvoiceDraft.inColumns (draft : InvoiceDraft) : Bool :=
  decide (draft.subtotal.natAbs < 10 ^ 14) && decide (draft.vatAmount.natAbs < 10 ^ 14) &&
    decide (draft.total.natAbs < 10 ^ 14)

/-- What the database holds of the two tables. -/
def Bills.inColumns (v : Bills) : Bool :=
  v.lines.all (fun r => r.2.inColumns) && v.drafts.all (fun r => r.2.inColumns)

end Billing
end Shiftlush
