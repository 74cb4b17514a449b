import Shiftlush.Rows
import Shiftlush.Money

namespace Shiftlush

/-- A primary key, UUIDv7 in the code: unique over all tables, and larger for
rows made later. -/
abbrev Id := Nat

namespace Ledger

/-!
# The ledger's tables

`apps.ledger.models`, and of `billing.InvoiceDraft` and `companies.Company`
what the ledger reads.  Where a check constraint of the database makes columns
exclude each other (one party of an account, a direction exactly with a side,
the sides of a transfer by its kind), the type says so instead.  No code path
deletes a row of these tables, so `is_deleted` is left out.
-/

/-- A calendar date, as its ordinal. -/
abbrev Date := Int

/-- `Account.kind` and the one party it names. -/
inductive Party where
  | customer (id : Id)
  | supplier (id : Id)
  | staff (user : Id)
  deriving DecidableEq, Repr

inductive Direction where
  | debit
  | credit
  deriving DecidableEq, Repr

inductive CashDirection where
  | in
  | out
  deriving DecidableEq, Repr

inductive MovementSource where
  | invoice
  | invoiceCancel
  | collection
  | paymentOut
  | manual
  | transfer
  | opening
  | reversal
  deriving DecidableEq, Repr

inductive PaymentMethod where
  | cash
  | transfer
  | card
  deriving DecidableEq, Repr

inductive TransferKind where
  | account
  | cash
  deriving DecidableEq, Repr

inductive InvoiceStatus where
  | draft
  | issued
  | paid
  | cancelled
  deriving DecidableEq, Repr

/-- "app_label.model_name" of a movement's source document. -/
inductive DocumentType where
  | invoiceDraft
  | collection
  | paymentOut
  | manualEntry
  | transfer
  | openingBalance
  deriving DecidableEq, Repr

/-- How a movement names its document (`document_type`, `document_id`). -/
structure DocumentRef where
  type : DocumentType
  id : Id
  deriving DecidableEq, Repr

/-- The two prefixes numbers are given under, "T-" and "O-". -/
inductive NumberPrefix where
  | collection
  | paymentOut
  deriving DecidableEq, Repr

structure Company where
  ledgerClosedThrough : Option Date
  deriving DecidableEq, Repr

structure Account where
  company : Id
  party : Party
  currency : String
  deriving DecidableEq, Repr

inductive CashAccountRole where
  | none
  | default
  | carriedOver
  deriving DecidableEq, Repr

structure CashAccount where
  company : Id
  role : CashAccountRole
  currency : String
  isActive : Bool
  deriving DecidableEq, Repr

/-- A live line of an invoice draft, as far as issuing and cancelling read it. -/
structure InvoiceLine where
  amount : Cents
  needsPrice : Bool
  fault : Option Id
  faultReleased : Bool
  deriving DecidableEq, Repr

structure InvoiceDraft where
  company : Id
  customer : Id
  currency : String
  vatRate : Int
  lines : List InvoiceLine
  subtotal : Cents
  vatAmount : Cents
  total : Cents
  status : InvoiceStatus
  invoiceNumber : String
  invoiceDate : Option Date
  paidOn : Option Date
  cancelledAt : Option Date
  cancelReason : String
  deriving DecidableEq, Repr

/-- The five documents of the ledger, each with the sides it names. -/
inductive DocumentBody where
  | collection (account cashAccount : Id) (number : Nat) (method : PaymentMethod)
  | paymentOut (account cashAccount : Id) (number : Nat) (method : PaymentMethod)
  | manualEntry (account : Id) (direction : Direction) (reason : String)
  | accountTransfer (fromAccount toAccount : Id)
  | cashTransfer (fromCash toCash : Id)
  | accountOpening (account : Id) (direction : Direction)
  | cashOpening (cashAccount : Id) (direction : Direction)
  deriving DecidableEq, Repr

def DocumentBody.type : DocumentBody -> DocumentType
  | .collection .. => .collection
  | .paymentOut .. => .paymentOut
  | .manualEntry .. => .manualEntry
  | .accountTransfer .. => .transfer
  | .cashTransfer .. => .transfer
  | .accountOpening .. => .openingBalance
  | .cashOpening .. => .openingBalance

structure Document where
  company : Id
  body : DocumentBody
  amount : Cents
  date : Date
  cancelledAt : Option Date
  deriving DecidableEq, Repr

structure CollectionApplication where
  company : Id
  collection : Id
  invoice : Id
  amount : Cents
  deriving DecidableEq, Repr

/-- One amount of money, on a party's account, a cash account, or both. -/
structure Movement where
  company : Id
  account : Option (Id × Direction)
  cashAccount : Option (Id × CashDirection)
  date : Date
  amount : Cents
  currency : String
  source : MovementSource
  document : DocumentRef
  reverses : Option Id
  deriving DecidableEq, Repr

/-- A party's account or a cash account: where a movement can be. -/
inductive Side where
  | account (id : Id)
  | cash (id : Id)
  deriving DecidableEq, Repr

/-- The database, and the clock in Istanbul. -/
structure Books where
  today : Date
  companies : Rows Company
  accounts : Rows Account
  cashAccounts : Rows CashAccount
  invoices : Rows InvoiceDraft
  documents : Rows Document
  applications : Rows CollectionApplication
  movements : Rows Movement
  /-- `DocumentCounter.last`; a counter not made yet has given out nothing. -/
  counters : Id -> NumberPrefix -> Nat

/-! ## Reading a row -/

namespace Direction

/-- `_MIRROR_DIRECTION` -/
def mirror : Direction -> Direction
  | .debit => .credit
  | .credit => .debit

/-- What an amount in this direction adds to a balance. -/
def signed : Direction -> Cents -> Cents
  | .debit, amount => amount
  | .credit, amount => -amount

@[simp] theorem mirror_mirror (d : Direction) : d.mirror.mirror = d := by cases d <;> rfl

@[simp] theorem signed_mirror (d : Direction) (amount : Cents) :
    d.mirror.signed amount = -d.signed amount := by
  cases d <;> simp [mirror, signed]

end Direction

namespace CashDirection

/-- `_MIRROR_CASH_DIRECTION` -/
def mirror : CashDirection -> CashDirection
  | .in => .out
  | .out => .in

def signed : CashDirection -> Cents -> Cents
  | .in, amount => amount
  | .out, amount => -amount

@[simp] theorem mirror_mirror (d : CashDirection) : d.mirror.mirror = d := by cases d <;> rfl

@[simp] theorem signed_mirror (d : CashDirection) (amount : Cents) :
    d.mirror.signed amount = -d.signed amount := by
  cases d <;> simp [mirror, signed]

end CashDirection

namespace Company

/-- The second half of `check_date`: `day` is not in the closed period. -/
def opens (company : Company) (day : Date) : Bool :=
  match company.ledgerClosedThrough with
  | none => true
  | some closedThrough => decide (closedThrough < day)

end Company

namespace InvoiceStatus

/-- `_PAYABLE_STATUSES` -/
def payable : InvoiceStatus -> Bool
  | .issued => true
  | .paid => true
  | _ => false

end InvoiceStatus

namespace InvoiceDraft

/-- Issued, whether or not paid, and not cancelled. -/
def standing (draft : InvoiceDraft) : Bool := draft.status.payable && draft.cancelledAt.isNone

/-- `billing.recompute`: the totals from the lines, while it is a draft. -/
def recompute (draft : InvoiceDraft) : InvoiceDraft :=
  if draft.status = .draft then
    let sums := totals (draft.lines.map (·.amount)) draft.vatRate
    { draft with subtotal := sums.1, vatAmount := sums.2.1, total := sums.2.2 }
  else draft

end InvoiceDraft

namespace Document

def standing (document : Document) : Bool := document.cancelledAt.isNone

def cancelledOn (day : Date) (document : Document) : Document :=
  { document with cancelledAt := some day }

/-- The side an opening balance is on. -/
def openingSide? (document : Document) : Option Side :=
  match document.body with
  | .accountOpening account _ => some (.account account)
  | .cashOpening cashAccount _ => some (.cash cashAccount)
  | _ => none

end Document

namespace Movement

/-- Whether the movement is on this side. -/
def on (m : Movement) : Side -> Bool
  | .account id => m.account.any (fun side => decide (side.1 = id))
  | .cash id => m.cashAccount.any (fun side => decide (side.1 = id))

/-- What the movement adds to the balance of this side. -/
def signedOn (m : Movement) : Side -> Cents
  | .account id =>
      match m.account with
      | some (account, direction) => if account = id then direction.signed m.amount else 0
      | none => 0
  | .cash id =>
      match m.cashAccount with
      | some (cashAccount, direction) =>
          if cashAccount = id then direction.signed m.amount else 0
      | none => 0

/-- The mirror `reverse_document` posts for the original under `id`. -/
def mirror (m : Movement) (id : Id) (date : Date) (source : MovementSource) : Movement :=
  { m with
    date := date
    account := m.account.map (fun side => (side.1, side.2.mirror))
    cashAccount := m.cashAccount.map (fun side => (side.1, side.2.mirror))
    source := source
    reverses := some id }

theorem signedOn_mirror (m : Movement) (id : Id) (date : Date) (source : MovementSource)
    (side : Side) : (m.mirror id date source).signedOn side = -m.signedOn side := by
  cases side with
  | account account =>
      cases at_account : m.account with
      | none => simp [signedOn, mirror, at_account]
      | some pair => by_cases same : pair.1 = account <;> simp [signedOn, mirror, at_account, same]
  | cash cashAccount =>
      cases at_cash : m.cashAccount with
      | none => simp [signedOn, mirror, at_cash]
      | some pair => by_cases same : pair.1 = cashAccount <;> simp [signedOn, mirror, at_cash, same]

end Movement

/-! ## Queries -/

namespace Books

/-- The movements of one document, its mirrors included. -/
def movementsOf (v : Books) (ref : DocumentRef) : Rows Movement :=
  v.movements.filter (fun r => r.2.document = ref)

/-- `reversed_by`: some movement reverses this one. -/
def isReversed (v : Books) (id : Id) : Bool :=
  v.movements.any (fun r => decide (r.2.reverses = some id))

/-- The order `reverse_document` reads originals in (`date`, then `created_at`
and `id`, which follow each other). -/
def earlier (r r' : Id × Movement) : Prop :=
  r.2.date < r'.2.date ∨ (r.2.date = r'.2.date ∧ r.1 ≤ r'.1)

instance : DecidableRel earlier := fun _ _ =>
  inferInstanceAs (Decidable (_ ∨ (_ ∧ _)))

/-- The originals of a document not reversed yet, in that order. -/
def unreversedOriginals (v : Books) (ref : DocumentRef) : Rows Movement :=
  List.insertionSort earlier
    ((v.movementsOf ref).filter (fun r => r.2.reverses.isNone && !v.isReversed r.1))

/-- Unreversed originals on one side, whatever their document. -/
def unreversedOn (v : Books) (side : Side) : Rows Movement :=
  v.movements.filter (fun r => r.2.on side && r.2.reverses.isNone && !v.isReversed r.1)

/-- Openings on a side not cancelled. -/
def standingOpenings (v : Books) (side : Side) : Rows Document :=
  v.documents.filter (fun r => decide (r.2.openingSide? = some side) && r.2.standing)

def applicationsOn (v : Books) (invoice : Id) : Rows CollectionApplication :=
  v.applications.filter (fun r => r.2.invoice = invoice)

def applicationsOf (v : Books) (collection : Id) : Rows CollectionApplication :=
  v.applications.filter (fun r => r.2.collection = collection)

/-- Whether a collection still stands. -/
def stands (v : Books) (document : Id) : Bool := (v.documents.get? document).any (·.standing)

/-- `invoice_collected`: what collections still standing have paid. -/
def invoiceCollected (v : Books) (invoice : Id) : Cents :=
  Rows.total (v.applicationsOn invoice) (fun _ a => if v.stands a.collection then a.amount else 0)

/-- `invoice_remaining` -/
def invoiceRemaining (v : Books) (invoice : Id) (draft : InvoiceDraft) : Cents :=
  draft.total - v.invoiceCollected invoice

/-- The customer's account in a currency (`account_for_customer`'s `live`). -/
def accountOf (v : Books) (customer : Id) (currency : String) : Option (Id × Account) :=
  v.accounts.find? (fun r => decide (r.2.party = .customer customer ∧ r.2.currency = currency))

/-- The firm's default till. -/
def defaultTill (v : Books) (company : Id) : Option (Id × CashAccount) :=
  v.cashAccounts.find? (fun r => decide (r.2.company = company ∧ r.2.role = .default))

/-- The sum of an account's movements in one direction. -/
def accountTotal (v : Books) (account : Id) (direction : Direction) : Cents :=
  Rows.total (v.movements.filter (fun r => r.2.account = some (account, direction)))
    (fun _ m => m.amount)

/-- `balances.account_balance`: debits less credits. -/
def accountBalance (v : Books) (account : Id) : Cents :=
  v.accountTotal account .debit - v.accountTotal account .credit

def cashTotal (v : Books) (cashAccount : Id) (direction : CashDirection) : Cents :=
  Rows.total (v.movements.filter (fun r => r.2.cashAccount = some (cashAccount, direction)))
    (fun _ m => m.amount)

/-- `balances.cash_balance`: in less out. -/
def cashBalance (v : Books) (cashAccount : Id) : Cents :=
  v.cashTotal cashAccount .in - v.cashTotal cashAccount .out

end Books

/-! ## Updates -/

namespace Books

def setClock (day : Date) (v : Books) : Books := { v with today := day }

def setClosedThrough (company : Id) (day : Option Date) (v : Books) : Books :=
  { v with companies := v.companies.update company (fun c => { c with ledgerClosedThrough := day }) }

def addAccount (id : Id) (account : Account) (v : Books) : Books :=
  { v with accounts := v.accounts.insert id account }

def addCashAccount (id : Id) (cashAccount : CashAccount) (v : Books) : Books :=
  { v with cashAccounts := v.cashAccounts.insert id cashAccount }

def setCounter (company : Id) (numberPrefix : NumberPrefix) (last : Nat) (v : Books) : Books :=
  { v with counters := fun c p =>
      if c = company ∧ p = numberPrefix then last else v.counters c p }

def addDocument (id : Id) (document : Document) (v : Books) : Books :=
  { v with documents := v.documents.insert id document }

def stampCancelled (id : Id) (day : Date) (v : Books) : Books :=
  { v with documents := v.documents.update id (·.cancelledOn day) }

def addApplication (id : Id) (application : CollectionApplication) (v : Books) : Books :=
  { v with applications := v.applications.insert id application }

def addMovement (id : Id) (movement : Movement) (v : Books) : Books :=
  { v with movements := v.movements.insert id movement }

def updateInvoice (id : Id) (f : InvoiceDraft -> InvoiceDraft) (v : Books) : Books :=
  { v with invoices := v.invoices.update id f }

end Books

end Ledger
end Shiftlush
