import Shiftlush.Text
import Shiftlush.Ledger.Posting

namespace Shiftlush
namespace Ledger

open Transactions

/-!
# Documents

`apps.ledger.services`, and the four functions of `apps.billing.services` that
reach the ledger (`issue`, `mark_paid`, `cancel`, `recompute`).  Every program
answers with the movements it wrote, in the order it wrote them, so that their
foreign keys can be checked when the transaction commits.

A text that names no member of an enumeration is `none` here.  A record the
request names is looked up before the service runs, as the view does.
-/

/-! ## Shared steps -/

namespace Books

/-- `_applied_invoice_ids` -/
def appliedInvoices (v : Books) (collection : Id) : List Id :=
  (v.applicationsOf collection).map (·.2.invoice)

/-- What applications of a collection have allocated. -/
def allocated (v : Books) (collection : Id) : Cents :=
  Rows.total (v.applicationsOf collection) (fun _ a => a.amount)

/-- `_invoice_movement` is not `None`. -/
def invoicePosted (v : Books) (invoice : Id) : Bool :=
  (v.movementsOf ⟨.invoiceDraft, invoice⟩).any (fun r => decide (r.2.source = .invoice))

/-- The date of the latest collection still paying the invoice. -/
def latestCollection (v : Books) (invoice : Id) : Option Date :=
  (((v.applicationsOn invoice).filterMap (fun r => v.documents.get? r.2.collection)).filter
    (·.standing)).map (·.date) |>.max?

/-- The status and `paid_on` that `sync_invoice_status` gives. -/
def settlement (v : Books) (id : Id) (draft : InvoiceDraft) : InvoiceStatus × Option Date :=
  if draft.total = 0 then (.paid, draft.invoiceDate)
  else if v.invoiceRemaining id draft ≤ 0 then
    (.paid, (v.latestCollection id).or draft.invoiceDate)
  else (.issued, none)

end Books

def InvoiceDraft.settle (draft : InvoiceDraft) (settlement : InvoiceStatus × Option Date) :
    InvoiceDraft :=
  { draft with status := settlement.1, paidOn := settlement.2 }

def lockInvoices (ids : List Id) : LedgerProg Unit := do
  let _ ← forEach (sortedKeys ids) (fun id => lock .update (.invoice id))
  return ()

/-- `_locked` of billing: one invoice, locked and read. -/
def lockInvoice (id : Id) : LedgerProg InvoiceDraft := do
  lock .update (.invoice id)
  fetch (fun v => v.invoices.get? id) .doesNotExist

/-- `_lock`: the document's row, locked, and refused if already cancelled. -/
def lockDocument (type : DocumentType) (id : Id) : LedgerProg Document := do
  lock .update (.document id)
  let locked ← fetch (fun v => (v.documents.get? id).filter (fun d => d.body.type = type))
    .doesNotExist
  require locked.standing (.conflict .alreadyReversed)
  return locked

def stampCancelled (type : DocumentType) (id : Id) : LedgerProg (Rows Movement) := do
  let today ← peek (·.today)
  let written ← reverseDocument ⟨type, id⟩ today .reversal
  write (Books.stampCancelled id today)
  return written

/-- `_cancel` -/
def cancelDocument (type : DocumentType) (id : Id) : LedgerProg (Rows Movement) := do
  let _ ← lockDocument type id
  stampCancelled type id

def nextNumber (company : Id) (numberPrefix : NumberPrefix) : LedgerProg Nat := do
  lock .update (.counter company numberPrefix)
  let last ← observe (fun v => v.counters company numberPrefix) .integrityError
  write (Books.setCounter company numberPrefix (last + 1))
  return last + 1

/-- `sync_invoice_status`.  The caller holds the invoice. -/
def syncInvoiceStatus (id : Id) : LedgerProg Unit := do
  let locked ← fetch (fun v => v.invoices.get? id) .doesNotExist
  if locked.standing then do
    let settlement ← observe (fun v => v.settlement id locked) .integrityError
    if (locked.status, locked.paidOn) = settlement then pure ()
    else write (Books.updateInvoice id (·.settle settlement))
  else pure ()

/-- What each invoice gets in all (`per_invoice`). -/
def shareOf (parts : List (Id × Cents)) (invoice : Id) : Cents :=
  ((parts.filter (fun part => part.1 = invoice)).map (·.2)).sum

/-- The first loop of `_apply`: whose the invoices are, and that the amounts are money. -/
def checkApplies (company : Id) (applies : List (Id × Decimal)) : LedgerProg (List (Id × Cents)) :=
  forEach applies (fun apply => do
    let invoice ← fetch (fun v => v.invoices.get? apply.1) (noSuchRecord "applies")
    require (decide (invoice.company = company)) (noSuchRecord "applies")
    require apply.2.isMoney
      (invalid "applies" "An amount applied is positive, to two decimal places.")
    return (apply.1, apply.2.cents?.getD 0))

/-- The second loop of `_apply`, for one invoice. -/
def applyOne (collection company : Id) (account : Account) (share : Cents) (id : Id) :
    LedgerProg Unit := do
  let invoice ← fetch (fun v => (v.invoices.get? id).filter (fun d => d.company = company))
    (noSuchRecord "applies")
  require (invoice.standing && decide (account.party = .customer invoice.customer))
    (invalid "applies" "Only this customer's issued invoices can be paid.")
  require (decide (invoice.currency = account.currency))
    (.fieldError "applies" .currencyMismatch)
  ensure (fun v => decide (share ≤ v.invoiceRemaining id invoice))
    (.fieldError "applies" .overpaymentOnInvoice)
  ensure (fun v => !(v.applicationsOn id).any (fun r => decide (r.2.collection = collection)))
    (.validation "applies" "This collection already pays this invoice." "unique")
  let application ← fresh
  write (Books.addApplication application
    { company := company, collection := collection, invoice := id, amount := share })

/-- `_apply`: pay invoices from a collection, together up to `limit`. -/
def applyTo (collection company : Id) (account : Account) (limit : Cents)
    (applies : List (Id × Decimal)) : LedgerProg Unit := do
  let parts ← checkApplies company applies
  require (decide ((parts.map (·.2)).sum ≤ limit))
    (invalid "applies" "More is applied than the collection brought in.")
  let _ ← forEach (sortedKeys (applies.map (·.1)))
    (fun id => applyOne collection company account (shareOf parts id) id)
  return ()

/-- `sync_invoice_status` of each invoice a write touched. -/
def syncInvoices (ids : List Id) : LedgerProg Unit := do
  let _ ← forEach (sortedKeys ids) syncInvoiceStatus
  return ()

/-- `_check_amount`, and the amount in cents. -/
def checkAmount (amount : Decimal) : LedgerProg Cents := do
  require amount.isMoney (invalid "amount" "An amount is positive, to two decimal places.")
  return amount.cents?.getD 0

def checkMethod : Option PaymentMethod -> LedgerProg PaymentMethod
  | some method => .done method
  | none => .raise (invalid "method" "Not a payment method.")

/-- The members of `Direction`, for a text that may be none of them. -/
def checkDirection : Option Direction -> LedgerProg Direction
  | some direction => .done direction
  | none => .raise (invalid "direction" "Not a direction.")

/-! ## Collections -/

def recordCollection (account : Id × Account) (cashAccount : Id × CashAccount) (amount : Decimal)
    (method : Option PaymentMethod) (date : Date) (applies : List (Id × Decimal)) :
    LedgerProg (Rows Movement) := do
  require (decide (cashAccount.2.company = account.2.company)) (noSuchRecord "cash_account")
  let method ← checkMethod method
  let cents ← checkAmount amount
  lockInvoices (applies.map (·.1))
  let number ← nextNumber account.2.company .collection
  let id ← fresh
  write (Books.addDocument id
    { company := account.2.company, body := .collection account.1 cashAccount.1 number method,
      amount := cents, date := date, cancelledAt := none })
  applyTo id account.2.company account.2 cents applies
  let movement ← post (some account) (some cashAccount) (some .credit) (some .in) amount
    account.2.currency date .collection ⟨.collection, id⟩
  syncInvoices (applies.map (·.1))
  return [movement]

def cancelAttempts : Nat := 3

/-- The end of every attempt of `cancel_collection`. -/
def finishCancel (collection : Id) (applied : List Id) : LedgerProg (Rows Movement) := do
  let written ← stampCancelled .collection collection
  syncInvoices applied
  return written

/-- `cancel_collection`, with so many attempts left: the invoices are found
without a lock, locked, and found again under the collection's lock.  The last
attempt locks a newcomer late. -/
def cancelCollection (collection : Id) : Nat -> LedgerProg (Rows Movement)
  | 0 => .raise (.assertion "unreachable: the last attempt never retries")
  | attempts + 1 => do
      let invoiceIds ← peek (fun v => v.appliedInvoices collection)
      lockInvoices invoiceIds
      let _ ← lockDocument .collection collection
      let applied ← observe (fun v => v.appliedInvoices collection) .integrityError
      if applied ⊆ invoiceIds then finishCancel collection applied
      else if attempts ≠ 0 then .rollback (cancelCollection collection attempts)
      else do
        lockInvoices (applied.filter (fun id => decide (id ∉ invoiceIds)))
        finishCancel collection applied

def applyCollection (collection : Id) (applies : List (Id × Decimal)) :
    LedgerProg (Rows Movement) := do
  require (!applies.isEmpty)
    (.validation "applies" "Name the invoices it pays." "required")
  lockInvoices (applies.map (·.1))
  let locked ← lockDocument .collection collection
  let applied ← observe (fun v => v.allocated collection) .integrityError
  match locked.body with
  | .collection accountId _ _ _ => do
      let account ← fetch (fun v => v.accounts.get? accountId) .doesNotExist
      applyTo collection locked.company account (locked.amount - applied) applies
      syncInvoices (applies.map (·.1))
      return []
  | _ => .raise .doesNotExist

/-! ## Invoices -/

def accountForCustomer (company customer : Id) (currency : String) :
    LedgerProg (Id × Account) := do
  let live ← find (fun v => v.accountOf customer currency)
  match live with
  | some account => return account
  | none => do
      -- The insert waits for another transaction's, and takes its account if it committed.
      lock .update (.accountKey customer currency)
      let theirs ← observe (fun v => v.accountOf customer currency) .integrityError
      match theirs with
      | some account => return account
      | none => do
          let id ← fresh
          let account : Account :=
            { company := company, party := .customer customer, currency := currency }
          write (Books.addAccount id account)
          return (id, account)

def defaultCurrency : String := "TRY"

def createDefaultCashAccount (company : Id) : LedgerProg (Id × CashAccount) := do
  let till ← find (fun v => v.defaultTill company)
  match till with
  | some till => return till
  | none => do
      lock .update (.tillKey company)
      let theirs ← observe (fun v => v.defaultTill company) .integrityError
      match theirs with
      | some _ => .raise .integrityError
      | none => do
          let id ← fresh
          let till : CashAccount :=
            { company := company, role := .default, currency := defaultCurrency, isActive := true }
          write (Books.addCashAccount id till)
          return (id, till)

def defaultCashAccount (company : Id) : LedgerProg (Id × CashAccount) := do
  let till ← createDefaultCashAccount company
  require till.2.isActive
    (invalid "cash_account" "The default till is inactive; name a cash account.")
  return till

def postInvoice (id : Id) : LedgerProg (Rows Movement) := do
  let locked ← lockInvoice id
  require locked.standing (invalid "invoice" "Only an issued invoice posts to the account.")
  match locked.invoiceDate with
  | none => .raise (.validation "invoice_date" "An issued invoice has a date." "required")
  | some date => do
      let posted ← observe (fun v => v.invoicePosted id) .integrityError
      if posted = true ∨ locked.total = 0 then return []
      else do
        let account ← accountForCustomer locked.company locked.customer locked.currency
        let movement ← post (some account) none (some .debit) none (.ofCents locked.total)
          locked.currency date .invoice ⟨.invoiceDraft, id⟩
        return [movement]

def reverseInvoice (id : Id) : LedgerProg (Rows Movement) := do
  let _ ← lockInvoice id
  ensure (fun v => decide (v.invoiceCollected id ≤ 0)) (.conflict .invoiceHasCollections)
  let posted ← observe (fun v => v.invoicePosted id) .integrityError
  if posted then do
    let today ← peek (·.today)
    reverseDocument ⟨.invoiceDraft, id⟩ today .invoiceCancel
  else return []

/-- The text `collect_invoice` refuses a till in another currency with. -/
def pickCashAccount (currency : String) : LedgerError :=
  .mismatch "cash_account" ("This invoice is in " ++ currency ++ "; pick a cash account in "
    ++ currency ++ ".") .currencyMismatch

/-- Where `collect_invoice` puts the money: the default till if none is named. -/
def tillFor (draft : InvoiceDraft) : Option (Id × CashAccount) -> LedgerProg (Id × CashAccount)
  | some till => .done till
  | none => do
      let till ← defaultCashAccount draft.company
      require (decide (till.2.currency = draft.currency)) (pickCashAccount draft.currency)
      return till

/-- `collect_invoice`.  The caller holds the invoice. -/
def collectInvoice (id : Id) (draft : InvoiceDraft) (date : Date)
    (cashAccount : Option (Id × CashAccount)) (method : Option PaymentMethod) :
    LedgerProg (Rows Movement) := do
  let till ← tillFor draft cashAccount
  let remaining ← observe (fun v => v.invoiceRemaining id draft) .integrityError
  let account ← accountForCustomer draft.company draft.customer draft.currency
  recordCollection account till (.ofCents remaining) method date [(id, .ofCents remaining)]

namespace Books

/-- Another invoice of the firm carries this number. -/
def numberTaken (v : Books) (company id : Id) (number : String) : Bool :=
  v.invoices.any (fun r => decide (r.1 ≠ id ∧ r.2.company = company ∧ r.2.invoiceNumber = number)
    && r.2.status.payable)

end Books

/-- What `issue` makes of a draft. -/
def InvoiceDraft.issued (draft : InvoiceDraft) (number : String) (date : Date) : InvoiceDraft :=
  { draft.recompute with status := .issued, invoiceNumber := number, invoiceDate := some date }

/-- `billing.issue` -/
def issue (id : Id) (number : String) (date : Date) : LedgerProg (Rows Movement) := do
  let draft ← lockInvoice id
  require (decide (draft.status = .draft)) (.conflict .invoiceTransitionNotAllowed)
  require (!draft.lines.any (·.needsPrice)) (.businessRule .invoiceLinesNeedPrice)
  let taken ← peek (fun v => v.numberTaken draft.company id number)
  require (!taken) (.duplicateRecord .duplicateInvoiceNumber)
  write (Books.updateInvoice id (fun _ => draft.issued number date))
  let written ← postInvoice id
  syncInvoiceStatus id
  return written

/-- `billing.mark_paid` -/
def markPaid (id : Id) (paidOn : Date) (cashAccount : Option (Id × CashAccount))
    (method : Option PaymentMethod) : LedgerProg (Rows Movement) := do
  let draft ← lockInvoice id
  let remaining ← observe (fun v => v.invoiceRemaining id draft) .integrityError
  require (decide (draft.status = .issued) && decide (0 < remaining))
    (.conflict .invoiceTransitionNotAllowed)
  collectInvoice id draft paidOn cashAccount method

/-- What `cancel` makes of an invoice: its faults are given back. -/
def InvoiceDraft.cancelled (draft : InvoiceDraft) (day : Date) (reason : String) : InvoiceDraft :=
  { draft with
    status := .cancelled
    cancelledAt := some day
    cancelReason := reason
    lines := draft.lines.map (fun line =>
      if line.fault.isSome then { line with faultReleased := true } else line) }

/-- `billing.cancel` -/
def cancelInvoice (id : Id) (reason : String) : LedgerProg (Rows Movement) := do
  let draft ← lockInvoice id
  require (decide (draft.status = .draft) || draft.status.payable)
    (.conflict .invoiceTransitionNotAllowed)
  let written ← if draft.status = .draft then .done [] else reverseInvoice id
  let today ← peek (·.today)
  write (Books.updateInvoice id (·.cancelled today reason))
  return written

/-! ## The other documents -/

def recordPaymentOut (account : Id × Account) (cashAccount : Id × CashAccount) (amount : Decimal)
    (method : Option PaymentMethod) (date : Date) : LedgerProg (Rows Movement) := do
  require (decide (cashAccount.2.company = account.2.company)) (noSuchRecord "cash_account")
  let method ← checkMethod method
  let cents ← checkAmount amount
  let number ← nextNumber account.2.company .paymentOut
  let id ← fresh
  write (Books.addDocument id
    { company := account.2.company, body := .paymentOut account.1 cashAccount.1 number method,
      amount := cents, date := date, cancelledAt := none })
  let movement ← post (some account) (some cashAccount) (some .debit) (some .out) amount
    account.2.currency date .paymentOut ⟨.paymentOut, id⟩
  return [movement]

def recordManualEntry (account : Id × Account) (direction : Option Direction) (amount : Decimal)
    (date : Date) (reason : String) : LedgerProg (Rows Movement) := do
  require (!(strip reason).isEmpty)
    (.validation "reason" "A manual entry needs a reason." "required")
  let direction ← checkDirection direction
  let cents ← checkAmount amount
  let id ← fresh
  write (Books.addDocument id
    { company := account.2.company, body := .manualEntry account.1 direction (strip reason),
      amount := cents, date := date, cancelledAt := none })
  let movement ← post (some account) none (some direction) none amount account.2.currency date
    .manual ⟨.manualEntry, id⟩
  return [movement]

/-- The checks of `record_transfer` on its two sides, once its kind has chosen them. -/
def checkTransfer {ρ : Type} (company : ρ -> Id) (currency : ρ -> String)
    (sourceField targetField : String) (source target : Option (Id × ρ)) :
    LedgerProg ((Id × ρ) × (Id × ρ)) :=
  match source, target with
  | none, _ => .raise (.validation sourceField "Required." "required")
  | some _, none => .raise (.validation targetField "Required." "required")
  | some source, some target => do
      require (decide (company target.2 = company source.2)) (noSuchRecord targetField)
      require (decide (source.1 ≠ target.1))
        (invalid targetField "A transfer moves between two different sides.")
      require (decide (currency source.2 = currency target.2))
        (.fieldError targetField .currencyMismatch)
      return (source, target)

def recordTransfer (kind : Option TransferKind) (amount : Decimal) (date : Date)
    (fromAccount toAccount : Option (Id × Account)) (fromCash toCash : Option (Id × CashAccount)) :
    LedgerProg (Rows Movement) :=
  match kind with
  | none => .raise (invalid "kind" "Not a transfer kind.")
  | some .account => do
      require (fromCash.isNone && toCash.isNone)
        (invalid "kind" "A transfer between accounts names no cash account.")
      let (source, target) ← checkTransfer Account.company Account.currency "from_account"
        "to_account" fromAccount toAccount
      let cents ← checkAmount amount
      lockSides [source.1, target.1] []
      let id ← fresh
      write (Books.addDocument id
        { company := source.2.company, body := .accountTransfer source.1 target.1,
          amount := cents, date := date, cancelledAt := none })
      let first ← post (some source) none (some .credit) none amount source.2.currency date
        .transfer ⟨.transfer, id⟩
      let second ← post (some target) none (some .debit) none amount source.2.currency date
        .transfer ⟨.transfer, id⟩
      return [first, second]
  | some .cash => do
      require (fromAccount.isNone && toAccount.isNone)
        (invalid "kind" "A transfer between cash accounts names no account.")
      let (source, target) ← checkTransfer CashAccount.company CashAccount.currency "from_cash"
        "to_cash" fromCash toCash
      let cents ← checkAmount amount
      lockSides [] [source.1, target.1]
      let id ← fresh
      write (Books.addDocument id
        { company := source.2.company, body := .cashTransfer source.1 target.1,
          amount := cents, date := date, cancelledAt := none })
      let first ← post none (some source) none (some .out) amount source.2.currency date
        .transfer ⟨.transfer, id⟩
      let second ← post none (some target) none (some .in) amount source.2.currency date
        .transfer ⟨.transfer, id⟩
      return [first, second]

namespace Books

/-- Nothing unreversed on the side is dated before `day`. -/
def startsBy (v : Books) (side : Side) (day : Date) : Bool :=
  (v.unreversedOn side).all (fun r => decide (day ≤ r.2.date))

end Books

/-- What `record_opening` checks under the lock of its side. -/
def checkOpening (side : Side) (field : String) (date : Date) : LedgerProg Unit := do
  ensure (fun v => (v.standingOpenings side).isEmpty)
    (.validation field "This side already has an opening balance." "unique")
  ensure (fun v => v.startsBy side date) (invalid "date" "Opening balance must come first")

/-- On a cash account a debit is money in. -/
def Direction.cash : Direction -> CashDirection
  | .debit => .in
  | .credit => .out

def recordOpening (direction : Option Direction) (amount : Decimal) (date : Date)
    (account : Option (Id × Account)) (cashAccount : Option (Id × CashAccount)) :
    LedgerProg (Rows Movement) :=
  match account, cashAccount with
  | some account, none => do
      let direction ← checkDirection direction
      let cents ← checkAmount amount
      lockSides [account.1] []
      checkOpening (.account account.1) "account" date
      let id ← fresh
      write (Books.addDocument id
        { company := account.2.company, body := .accountOpening account.1 direction,
          amount := cents, date := date, cancelledAt := none })
      let movement ← post (some account) none (some direction) none amount account.2.currency date
        .opening ⟨.openingBalance, id⟩
      return [movement]
  | none, some till => do
      let direction ← checkDirection direction
      let cents ← checkAmount amount
      lockSides [] [till.1]
      checkOpening (.cash till.1) "cash_account" date
      let id ← fresh
      write (Books.addDocument id
        { company := till.2.company, body := .cashOpening till.1 direction,
          amount := cents, date := date, cancelledAt := none })
      let movement ← post none (some till) none (some direction.cash) amount till.2.currency date
        .opening ⟨.openingBalance, id⟩
      return [movement]
  | _, _ => .raise (invalid "account" "An opening is on an account or on a cash account.")

/-! ## Settings -/

def setClosedThrough (company : Id) (day : Option Date) : LedgerProg (Rows Movement) := do
  let today ← peek (·.today)
  require (day.all (fun day => decide (day ≤ today)))
    (invalid "closed_through" "A period after today cannot be closed.")
  lock .update (.company company)
  let row ← fetch (fun v => v.companies.get? company) .doesNotExist
  if row.ledgerClosedThrough = day then return []
  else do
    write (Books.setClosedThrough company day)
    return []

/-! ## Requests -/

/-- What a user, or the day, may ask of the ledger. -/
inductive Request where
  | recordCollection (account cashAccount : Id) (amount : Decimal) (method : Option PaymentMethod)
      (date : Date) (applies : List (Id × Decimal))
  | applyCollection (collection : Id) (applies : List (Id × Decimal))
  | cancelCollection (collection : Id)
  | recordPaymentOut (account cashAccount : Id) (amount : Decimal) (method : Option PaymentMethod)
      (date : Date)
  | recordManualEntry (account : Id) (direction : Option Direction) (amount : Decimal)
      (date : Date) (reason : String)
  | recordTransfer (kind : Option TransferKind) (amount : Decimal) (date : Date)
      (fromAccount toAccount fromCash toCash : Option Id)
  | recordOpening (direction : Option Direction) (amount : Decimal) (date : Date)
      (account cashAccount : Option Id)
  | cancelPaymentOut (payment : Id)
  | cancelManualEntry (entry : Id)
  | cancelTransfer (transfer : Id)
  | cancelOpening (opening : Id)
  | issue (invoice : Id) (number : String) (date : Date)
  | markPaid (invoice : Id) (paidOn : Date) (cashAccount : Option Id)
      (method : Option PaymentMethod)
  | cancelInvoice (invoice : Id) (reason : String)
  | setClosedThrough (company : Id) (day : Option Date)
  /-- The clock moves. -/
  | today (day : Date)
  deriving DecidableEq, Repr

def findAccount (id : Id) : LedgerProg (Id × Account) := do
  let account ← fetch (fun v => v.accounts.get? id) .doesNotExist
  return (id, account)

def findCashAccount (id : Id) : LedgerProg (Id × CashAccount) := do
  let cashAccount ← fetch (fun v => v.cashAccounts.get? id) .doesNotExist
  return (id, cashAccount)

/-- A record the request may leave out. -/
def findOptional {ρ : Type} (look : Id -> LedgerProg (Id × ρ)) :
    Option Id -> LedgerProg (Option (Id × ρ))
  | none => .done none
  | some id => do
      let row ← look id
      return some row

/-- The service a request is for. -/
def Request.service : Request -> LedgerProg (Rows Movement)
  | .recordCollection account cashAccount amount method date applies => do
      let account ← findAccount account
      let cashAccount ← findCashAccount cashAccount
      Ledger.recordCollection account cashAccount amount method date applies
  | .applyCollection collection applies => Ledger.applyCollection collection applies
  | .cancelCollection collection => Ledger.cancelCollection collection cancelAttempts
  | .recordPaymentOut account cashAccount amount method date => do
      let account ← findAccount account
      let cashAccount ← findCashAccount cashAccount
      Ledger.recordPaymentOut account cashAccount amount method date
  | .recordManualEntry account direction amount date reason => do
      let account ← findAccount account
      Ledger.recordManualEntry account direction amount date reason
  | .recordTransfer kind amount date fromAccount toAccount fromCash toCash => do
      let fromAccount ← findOptional findAccount fromAccount
      let toAccount ← findOptional findAccount toAccount
      let fromCash ← findOptional findCashAccount fromCash
      let toCash ← findOptional findCashAccount toCash
      Ledger.recordTransfer kind amount date fromAccount toAccount fromCash toCash
  | .recordOpening direction amount date account cashAccount => do
      let account ← findOptional findAccount account
      let cashAccount ← findOptional findCashAccount cashAccount
      Ledger.recordOpening direction amount date account cashAccount
  | .cancelPaymentOut payment => cancelDocument .paymentOut payment
  | .cancelManualEntry entry => cancelDocument .manualEntry entry
  | .cancelTransfer transfer => cancelDocument .transfer transfer
  | .cancelOpening opening => cancelDocument .openingBalance opening
  | .issue invoice number date => Ledger.issue invoice number date
  | .markPaid invoice paidOn cashAccount method => do
      let cashAccount ← findOptional findCashAccount cashAccount
      Ledger.markPaid invoice paidOn cashAccount method
  | .cancelInvoice invoice reason => Ledger.cancelInvoice invoice reason
  | .setClosedThrough company day => Ledger.setClosedThrough company day
  | .today day => do
      write (Books.setClock day)
      return []

/-- A request in its transaction, foreign keys checked at its commit. -/
def serve (request : Request) : LedgerProg Unit := do
  let written ← request.service
  checkForeignKeys written

end Ledger
end Shiftlush
