import Shiftlush.Transactions.Notes
import Shiftlush.Ledger.Vouchers

namespace Shiftlush
namespace Ledger

open Transactions

/-!
# Cash accounts and the postings on them

A request reads the accounts and cash accounts it names before its transaction
starts, one statement each, and `post` checks the currency of what was read.
`CashAccountViewSet.partial_update` saves the whole row it has read.  `Desk` is
the machine with those first reads kept apart, in the form of each request.

A service that posts is, as far as currencies go, the list of its postings over
what it has read: it may be refused for any other reason, which is a session
lost.  The till that `default_cash_account` finds is one more row read.
-/

/-- The rows a request has read. -/
structure Form where
  accounts : Rows Account
  cashAccounts : Rows CashAccount
  deriving DecidableEq

/-- `CashAccountWriteSerializer`, of a PATCH: the fields that are given. -/
structure CashAccountChanges where
  currency : Option String
  isActive : Option Bool
  deriving DecidableEq, Repr

def CashAccountChanges.apply (changes : CashAccountChanges) (till : CashAccount) : CashAccount :=
  { till with
    currency := changes.currency.getD till.currency
    isActive := changes.isActive.getD till.isActive }

/-- `^[A-Z]{3}$` -/
def isCurrencyCode (text : String) : Bool := decide (text.length = 3) && text.toList.all Char.isUpper

namespace Books

/-- A movement is on the cash account. -/
def isUsed (v : Books) (cashAccount : Id) : Bool :=
  v.movements.any (fun r => r.2.on (.cash cashAccount))

/-- `UPDATE`, every column as the instance has it. -/
def saveCashAccount (id : Id) (till : CashAccount) (v : Books) : Books :=
  { v with cashAccounts := v.cashAccounts.update id (fun _ => till) }

end Books

/-- What a request asks for, once it has read its rows. -/
inductive Draft where
  | document (legs : List Leg) (amount : Decimal) (currency : String) (date : Date)
      (source : MovementSource) (document : DocumentRef)
  | reversal (document : DocumentRef) (date : Date) (source : MovementSource)
  | createCashAccount (company : Id) (currency : Option String)
  | editCashAccount (id : Id) (changes : CashAccountChanges)
  | createAccount (account : Account)
  deriving DecidableEq

structure Submission where
  form : Form
  draft : Draft

/-- A row the form has, under the key the request names. -/
def given {ρ : Type} (rows : Rows ρ) : Option Id -> LedgerProg (Option (Id × ρ))
  | none => .done none
  | some id =>
      match rows.get? id with
      | some row => .done (some (id, row))
      | none => .raise .doesNotExist

/-- `validate_currency`, on the instance as it was read. -/
def validateCurrency (id : Id) (till : CashAccount) : Option String -> LedgerProg Unit
  | none => .done ()
  | some currency => do
      require (isCurrencyCode currency) (invalid "currency" "This value does not match the required pattern.")
      if currency = till.currency then return ()
      else do
        let used ← peek (fun v => v.isUsed id)
        require (!used) (invalid "currency" "The currency is fixed once the cash account is used.")

/-- `partial_update` of a cash account. -/
def editCashAccount (id : Id) (till : CashAccount) (changes : CashAccountChanges) : LedgerProg Unit := do
  validateCurrency id till changes.currency
  require (changes.isActive.getD true || decide (till.role = .none))
    (invalid "is_active" "The firm's default till and its carried-over tills stay active.")
  lock .update (.cashAccount id)
  write (Books.saveCashAccount id (changes.apply till))

/-- One posting of a document. -/
def postLeg (form : Form) (leg : Leg) (amount : Decimal) (currency : String) (date : Date)
    (source : MovementSource) (document : DocumentRef) : LedgerProg (Id × Movement) := do
  let account ← given form.accounts (leg.account.map Prod.fst)
  let cashAccount ← given form.cashAccounts (leg.cashAccount.map Prod.fst)
  post account cashAccount (leg.account.map Prod.snd) (leg.cashAccount.map Prod.snd) amount currency date
    source document

def Submission.serve (q : Submission) : LedgerProg Unit :=
  match q.draft with
  | .document legs amount currency date source document => do
      let _ ← forEach legs (fun leg => postLeg q.form leg amount currency date source document)
      return ()
  | .reversal document date source => do
      let _ ← reverseDocument document date source
      return ()
  | .createCashAccount company currency => do
      require (currency.all isCurrencyCode)
        (invalid "currency" "This value does not match the required pattern.")
      let id ← fresh
      write (Books.addCashAccount id ⟨company, .none, currency.getD defaultCurrency, true⟩)
  | .editCashAccount id changes =>
      match q.form.cashAccounts.get? id with
      | some till => editCashAccount id till changes
      | none => .raise .doesNotExist
  | .createAccount account => do
      let id ← fresh
      write (Books.addAccount id account)

abbrev TillMachine := Machine Books Row Note LedgerError Submission Unit

structure Desk where
  machine : TillMachine
  forms : List Form

inductive DeskEvent where
  /-- A request comes in, and has read nothing. -/
  | open
  | readAccount (form : Nat) (id : Id)
  | readCashAccount (form : Nat) (id : Id)
  | submit (form : Nat) (draft : Draft)
  | advance (session : Nat)
  | lose (session : Nat)
  deriving DecidableEq

namespace Desk

def start (books : Books) (nextId : Nat) : Desk := ⟨.init books nextId, []⟩

def books (d : Desk) : Books := d.machine.committed

def step (d : Desk) : DeskEvent -> Desk
  | .open => { d with forms := d.forms ++ [⟨[], []⟩] }
  | .readAccount i id =>
      match d.forms[i]?, d.books.accounts.get? id with
      | some form, some row =>
          { d with forms := d.forms.set i { form with accounts := (id, row) :: form.accounts } }
      | _, _ => d
  | .readCashAccount i id =>
      match d.forms[i]?, d.books.cashAccounts.get? id with
      | some form, some row =>
          { d with forms := d.forms.set i { form with cashAccounts := (id, row) :: form.cashAccounts } }
      | _, _ => d
  | .submit i draft =>
      match d.forms[i]? with
      | some form => { d with machine := d.machine.step Submission.serve (.arrive ⟨form, draft⟩) }
      | none => d
  | .advance i => { d with machine := d.machine.step Submission.serve (.advance i) }
  | .lose i => { d with machine := d.machine.step Submission.serve (.lose i) }

end Desk
end Ledger
end Shiftlush
