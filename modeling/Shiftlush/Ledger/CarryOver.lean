import Shiftlush.Ledger.Services
import Shiftlush.Transactions.Alone

namespace Shiftlush
namespace Ledger

open Transactions

/-!
# Legacy invoices

`apps.ledger.migration_helpers`: the drafts an old container issued or marked
paid without a posting, carried into the ledger one transaction at a time.  A
run selects them once; between its transactions an old container may write a
draft that is still ahead.  Nobody else is in the ledger meanwhile.
-/

namespace Books

/-- The firm's carried-over till in a currency. -/
def carriedOverTill (v : Books) (company : Id) (currency : String) : Option (Id × CashAccount) :=
  v.cashAccounts.find? (fun r =>
    decide (r.2.company = company ∧ r.2.role = .carriedOver ∧ r.2.currency = currency))

/-- The conditions of `_to_carry`. -/
def needsCarry (v : Books) (id : Id) (draft : InvoiceDraft) : Bool :=
  draft.standing &&
    ((!v.invoicePosted id && !decide (draft.status = .paid ∧ draft.total = 0)) ||
      decide (draft.status = .paid ∧ 0 < draft.total ∧ 0 < v.invoiceRemaining id draft))

/-- `ORDER BY company_id, invoice_date, id`, a draft without a date after those with one. -/
def carriedBefore (r r' : Id × InvoiceDraft) : Prop :=
  r.2.company < r'.2.company ∨ (r.2.company = r'.2.company ∧
    (r.2.invoiceDate.isNone.toNat < r'.2.invoiceDate.isNone.toNat ∨
      (r.2.invoiceDate.isNone.toNat = r'.2.invoiceDate.isNone.toNat ∧
        (r.2.invoiceDate.getD 0 < r'.2.invoiceDate.getD 0 ∨
          (r.2.invoiceDate.getD 0 = r'.2.invoiceDate.getD 0 ∧ r.1 ≤ r'.1)))))

instance : DecidableRel carriedBefore := fun _ _ =>
  inferInstanceAs (Decidable (_ ∨ (_ ∧ (_ ∨ (_ ∧ (_ ∨ (_ ∧ _)))))))

/-- `_to_carry` -/
def toCarry (v : Books) : List Id :=
  (List.insertionSort carriedBefore (v.invoices.filter (fun r => v.needsCarry r.1 r.2))).map Prod.fst

end Books

/-- `carried_over_cash_account` -/
def carriedOverCashAccount (company : Id) (currency : String) : LedgerProg (Id × CashAccount) := do
  let till ← find (fun v => v.carriedOverTill company currency)
  match till with
  | some till => return till
  | none => do
      let id ← fresh
      let till : CashAccount :=
        { company := company, role := .carriedOver, currency := currency, isActive := true }
      write (Books.addCashAccount id till)
      return (id, till)

/-- `post_invoice`, with the date it is given. -/
def postInvoiceOn (id : Id) (day : Option Date) : LedgerProg (Rows Movement) := do
  let locked ← lockInvoice id
  require locked.standing (invalid "invoice" "Only an issued invoice posts to the account.")
  match locked.invoiceDate with
  | none => .raise (.validation "invoice_date" "An issued invoice has a date." "required")
  | some date => do
      let posted ← observe (fun v => v.invoicePosted id) .integrityError
      if posted = true ∨ locked.total = 0 then return []
      else do
        let account ← accountForCustomer locked.company locked.customer locked.currency
        let movement ← post (some account) none (some .debit) none (.ofCents locked.total)
          locked.currency (day.getD date) .invoice ⟨.invoiceDraft, id⟩
        return [movement]

/-- The collection of a paid draft, if it still owes something. -/
def collectPaid (id : Id) (draft : InvoiceDraft) (today : Date) : LedgerProg Bool :=
  match draft.paidOn.or draft.invoiceDate with
  | none => .done false
  | some paidOn => do
      let remaining ← observe (fun v => v.invoiceRemaining id draft) .integrityError
      if draft.status = .paid ∧ 0 < remaining then do
        let till ← carriedOverCashAccount draft.company draft.currency
        let _ ← collectInvoice id draft (min paidOn today) (some till) (some .transfer)
        return true
      else return false

/-- `_carry_over_draft` -/
def carryOverDraft (id : Id) : LedgerProg (Bool × Bool) := do
  let draft ← lockInvoice id
  if draft.standing then do
    let today ← peek (·.today)
    let written ← postInvoiceOn id (draft.invoiceDate.map (min · today))
    let collected ← collectPaid id draft today
    syncInvoiceStatus id
    return (!written.isEmpty, collected)
  else return (false, false)

namespace CarryOver

structure CarriedOver where
  posted : Nat
  collected : Nat
  failed : Nat
  deriving DecidableEq, Repr

/-- A call of `carry_over_invoices`: the drafts of its query still ahead. -/
structure Run where
  ahead : List Id
  result : CarriedOver
  deriving DecidableEq, Repr

structure State where
  books : Books
  nextId : Id
  /-- The run under way, or the last one while nothing has been written since. -/
  run : Option Run

inductive Event where
  | start
  /-- The next draft is carried over. -/
  | carry
  /-- Its transaction fails for a reason outside the books. -/
  | fail
  /-- The run stops half way. -/
  | stop
  /-- An old container adds a draft, between runs. -/
  | add (draft : InvoiceDraft)
  /-- An old container writes a draft, between runs or before its turn. -/
  | change (id : Id) (draft : InvoiceDraft)
  | today (day : Date)
  deriving DecidableEq

namespace CarriedOver

def count (result : CarriedOver) (posted collected : Bool) : CarriedOver :=
  { result with posted := result.posted + posted.toNat, collected := result.collected + collected.toNat }

def fail (result : CarriedOver) : CarriedOver := { result with failed := result.failed + 1 }

end CarriedOver

namespace State

variable (s : State)

def ahead : List Id := (s.run.map Run.ahead).getD []

/-- The transaction of the next draft fails. -/
def failNext : State :=
  match s.run with
  | some ⟨_ :: ahead, result⟩ => { s with run := some ⟨ahead, result.fail⟩ }
  | _ => s

/-- The turn of the next draft. -/
def carry : State :=
  match s.run with
  | some ⟨id :: ahead, result⟩ =>
      match (carryOverDraft id).alone s.books s.books (fun k => s.nextId + k) with
      | .ok ((posted, collected), books, keys) => ⟨books, keys 0, some ⟨ahead, result.count posted collected⟩⟩
      | .error _ => s.failNext
  | _ => s

def step : Event -> State
  | .start => if s.ahead.isEmpty then { s with run := some ⟨s.books.toCarry, ⟨0, 0, 0⟩⟩ } else s
  | .carry => s.carry
  | .fail => s.failNext
  | .stop => { s with run := none }
  | .add draft =>
      if s.ahead.isEmpty then
        { s with
          books := { s.books with invoices := s.books.invoices.insert s.nextId draft }
          nextId := s.nextId + 1
          run := none }
      else s
  | .change id draft =>
      if s.ahead.isEmpty then { s with books := s.books.updateInvoice id (fun _ => draft), run := none }
      else if id ∈ s.ahead then { s with books := s.books.updateInvoice id (fun _ => draft) }
      else s
  | .today day => { s with books := s.books.setClock day }

end State
end CarryOver
end Ledger
end Shiftlush
