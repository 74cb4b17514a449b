import Shiftlush.Billing.Records

namespace Shiftlush
namespace Billing

open Calendar (Date)
open Ledger (InvoiceStatus)

/-!
# What the office does to a draft

The lifecycle half of `apps.billing.services`, each call on the tables as they
are.  The ledger writes no line and no total, so its answers are arguments here:
whether it takes the invoice's debit, what a payment settles, and whether it
takes the debit back.
-/

inductive Failure where
  | notFound
  | validationError
  | invoiceTransitionNotAllowed
  | invoiceLinesNeedPrice
  | duplicateInvoiceNumber
  | integrityError
  | notUpdated
  | dataError
  | ledgerRefused
  deriving DecidableEq, Repr

/-- `InvoiceLineEditSerializer`: the fields a PATCH gives. -/
structure LineChanges where
  description : Option String
  quantity : Option Int
  unitPrice : Option Cents
  deriving DecidableEq

namespace LineChanges

/-- `min_value` of the two fields. -/
def isValid (changes : LineChanges) : Bool :=
  changes.quantity.all (fun quantity => decide (0 < quantity)) &&
    changes.unitPrice.all (fun unitPrice => decide (0 ≤ unitPrice))

/-- What `edit_line` makes of the line it is given: "a quantity the accountant
types replaces the fraction". -/
def apply (changes : LineChanges) (line : InvoiceLine) : InvoiceLine :=
  let line := { line with
    description := (changes.description.map Description.typed).getD line.description
    quantity := changes.quantity.getD line.quantity
    unitPrice := changes.unitPrice.or line.unitPrice
    proration := if changes.quantity.isSome then none else line.proration }
  { line with needsPrice := line.unitPrice.isNone, amount := line.lineAmount }

end LineChanges

/-- `InvoiceManualLineSerializer` -/
structure NewLine where
  description : String
  quantity : Int
  unitPrice : Cents
  deriving DecidableEq

namespace NewLine

def isValid (new : NewLine) : Bool := decide (0 < new.quantity) && decide (0 ≤ new.unitPrice)

def row (new : NewLine) (draft position : Nat) : InvoiceLine where
  draft := draft
  kind := .manual
  description := .typed new.description
  elevator := none
  fault := none
  faultReleased := false
  quantity := new.quantity
  proration := none
  unitPrice := some new.unitPrice
  amount := lineAmount new.quantity (some new.unitPrice)
  needsPrice := false
  position := position
  isDeleted := false

end NewLine

/-- What a full save makes of a row: a line stays on its draft. -/
def InvoiceLine.savedOver (line current : InvoiceLine) : InvoiceLine := { line with draft := current.draft }

namespace InvoiceDraft

/-- `post_invoice`: nothing is posted of a zero total, and no movement is
negative. -/
def isPosted (draft : InvoiceDraft) (posts : Bool) : Bool :=
  decide (draft.total = 0) || decide (0 < draft.total) && posts

/-- `sync_invoice_status` of an invoice nothing has been paid of. -/
def settled (draft : InvoiceDraft) : InvoiceDraft :=
  if draft.total ≤ 0 then draft.paid draft.invoiceDate else draft

end InvoiceDraft

namespace Bills

/-- `get_object` of the draft view. -/
def draft (v : Bills) (id : Nat) : Except Failure InvoiceDraft :=
  match v.drafts.get? id with
  | some draft => .ok draft
  | none => .error .notFound

/-- `get_object` of the line view. -/
def line (v : Bills) (id : Nat) : Except Failure InvoiceLine :=
  match (v.lines.get? id).filter InvoiceLine.isLive with
  | some line => .ok line
  | none => .error .notFound

def editable (v : Bills) (id : Nat) : Except Failure InvoiceDraft := do
  let draft ← v.draft id
  if draft.status = .draft then .ok draft else .error .invoiceTransitionNotAllowed

/-- `recompute`: "a no-op once it is not a draft". -/
def recompute (v : Bills) (id : Nat) : Bills :=
  match v.drafts.get? id with
  | some draft =>
      if draft.status = .draft then
        v.updateDraft id (InvoiceDraft.withSums (totals (v.amounts id) draft.vatRate))
      else v
  | none => v

/-- `add_line`, with the key of the new line. -/
def addLine (v : Bills) (draft : Nat) (new : NewLine) (key : Nat) : Except Failure Bills := do
  let _ ← v.draft draft
  if new.isValid then
    let _ ← v.editable draft
    .ok ((v.insertLine key (new.row draft (v.lastPosition draft + 1))).recompute draft)
  else .error .validationError

def editLine (v : Bills) (id : Nat) (changes : LineChanges) : Except Failure Bills := do
  let line ← v.line id
  if changes.isValid then
    let _ ← v.editable line.draft
    .ok ((v.updateLine id (InvoiceLine.savedOver (changes.apply line))).recompute line.draft)
  else .error .validationError

def removeLine (v : Bills) (id : Nat) : Except Failure Bills := do
  let line ← v.line id
  let _ ← v.editable line.draft
  .ok ((v.updateLine id InvoiceLine.deleted).recompute line.draft)

/-- `issue`; `posts` if the ledger takes the debit. -/
def issue (v : Bills) (id : Nat) (number : String) (date : Date) (posts : Bool) :
    Except Failure Bills := do
  let draft ← v.editable id
  if v.needsPrice id then .error .invoiceLinesNeedPrice
  else if v.numberTaken id number then .error .duplicateInvoiceNumber
  else
    let draft := draft.withSums (totals (v.amounts id) draft.vatRate)
    if draft.isPosted posts then
      .ok ((v.recompute id).updateDraft id (fun draft => (draft.issued number date).settled))
    else .error .ledgerRefused

/-- `mark_paid`; `settles` is the day the ledger counts the invoice paid on, or
nothing if it takes no collection. -/
def markPaid (v : Bills) (id : Nat) (settles : Option Date) : Except Failure Bills := do
  let draft ← v.draft id
  if draft.status ≠ .issued then .error .invoiceTransitionNotAllowed
  else
    match settles with
    | some day => .ok (v.updateDraft id (InvoiceDraft.paid (some day)))
    | none => .error .ledgerRefused

/-- The loop of `cancel`: the draft's live lines give their faults back. -/
def releaseFaults (v : Bills) (id : Nat) : Bills :=
  { v with lines := v.lines.map (fun r =>
      if decide (r.2.draft = id) && r.2.isLive && r.2.fault.isSome then (r.1, r.2.released) else r) }

/-- `cancel`; `reverses` if the ledger takes the debit back. -/
def cancel (v : Bills) (id : Nat) (reason : String) (reverses : Bool) : Except Failure Bills := do
  let draft ← v.draft id
  if draft.status = .cancelled then .error .invoiceTransitionNotAllowed
  else if draft.status ≠ .draft ∧ reverses = false then .error .ledgerRefused
  else .ok ((v.updateDraft id (InvoiceDraft.cancelled reason)).releaseFaults id)

end Bills

end Billing
end Shiftlush
