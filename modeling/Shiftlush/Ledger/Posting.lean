import Shiftlush.Transactions.Program
import Shiftlush.Ledger.Records
import Mathlib.Data.List.Dedup

namespace Shiftlush
namespace Ledger

open Transactions

/-!
# Posting

`apps.ledger.posting`: the only code that writes movements.  The programs here
are the statements it sends, in the order it sends them.
-/

/-! ## What can be locked, and what refuses -/

/-- A row, or an entry of a unique index: inserting a second one waits for the
transaction that inserted the first, as for a lock. -/
inductive Row where
  | company (id : Id)
  | invoice (id : Id)
  | document (id : Id)
  | tillKey (company : Id)
  | accountKey (customer : Id) (currency : String)
  | counter (company : Id) (numberPrefix : NumberPrefix)
  | movement (id : Id)
  | account (id : Id)
  | cashAccount (id : Id)
  deriving DecidableEq, Repr

/-- What `check_date` saw: `day` was open in the books of `company`. -/
inductive Note where
  | dateOpen (company : Id) (day : Date)
  deriving DecidableEq, Repr

/-- The members of `core.error_codes.ErrorCode` the ledger answers with. -/
inductive ErrorCode where
  | alreadyReversed
  | periodClosed
  | currencyMismatch
  | overpaymentOnInvoice
  | invoiceHasCollections
  | invoiceTransitionNotAllowed
  | invoiceLinesNeedPrice
  | duplicateInvoiceNumber
  deriving DecidableEq, Repr

inductive LedgerError where
  | validation (field message code : String)
  | fieldError (field : String) (code : ErrorCode)
  | mismatch (field message : String) (code : ErrorCode)
  | conflict (code : ErrorCode)
  | businessRule (code : ErrorCode)
  | duplicateRecord (code : ErrorCode)
  | doesNotExist
  | integrityError
  | assertion (message : String)
  deriving DecidableEq, Repr

/-- `_invalid` -/
def invalid (field message : String) : LedgerError := .validation field message "invalid"

/-- `_same_firm` and the other refusals of what this firm does not have. -/
def noSuchRecord (field : String) : LedgerError :=
  .validation field "No such record." "does_not_exist"

abbrev LedgerProg := Prog Books Row Note LedgerError

/-- Keys as a query `pk__in=… ORDER BY pk` meets them. -/
def sortedKeys (ids : List Id) : List Id := List.insertionSort (· ≤ ·) ids.dedup

theorem mem_sortedKeys {ids : List Id} {id : Id} : id ∈ sortedKeys ids ↔ id ∈ ids := by
  unfold sortedKeys
  rw [List.mem_insertionSort, List.mem_dedup]

theorem nodup_sortedKeys (ids : List Id) : (sortedKeys ids).Nodup :=
  (List.perm_insertionSort _ _).nodup_iff.mpr (List.nodup_dedup ids)

theorem sortedKeys_increasing (ids : List Id) : (sortedKeys ids).Pairwise (· < ·) := by
  have sorted : (sortedKeys ids).Pairwise (· ≤ ·) := List.pairwise_insertionSort _ _
  exact sorted.imp₂ (fun _ _ le ne => Nat.lt_of_le_of_ne le ne) (nodup_sortedKeys ids)

/-! ## The programs -/

/-- `check_date` on a freshly read company. -/
def checkDate (company : Id) (day : Date) : LedgerProg Unit := do
  let fresh ← peekLogged (fun v => v.companies.get? company)
    (fun row => if row.any (·.opens day) then [.dateOpen company day] else [])
  match fresh with
  | none => .raise .doesNotExist
  | some row => do
      let today ← peek (·.today)
      require (decide (day ≤ today)) (invalid "date" "A movement cannot be dated after today.")
      require (row.opens day) (.fieldError "date" .periodClosed)

/-- `lock_sides`: accounts, then cash accounts, each in key order. -/
def lockSides (accounts cashAccounts : List Id) : LedgerProg Unit := do
  let _ ← forEach (sortedKeys accounts) (fun id => lock .update (.account id))
  let _ ← forEach (sortedKeys cashAccounts) (fun id => lock .update (.cashAccount id))
  return ()

namespace Books

/-- Whether an opening standing on the side is dated after `day`. -/
def hasLaterOpening (v : Books) (side : Side) (day : Date) : Bool :=
  (v.standingOpenings side).any (fun r => decide (day < r.2.date))

end Books

/-- `_check_after_opening` -/
def checkAfterOpening (account cashAccount : Option Id) (day : Date) : LedgerProg Unit := do
  let sides := (account.map Side.account).toList ++ (cashAccount.map Side.cash).toList
  let _ ← forEach sides (fun side => ensure (fun v => !v.hasLaterOpening side day)
    (invalid "date" "Earlier than the opening balance"))
  return ()

/-- A side and its direction, as a movement keeps them. -/
def sided {ρ δ : Type} : Option (Id × ρ) -> Option δ -> Option (Id × δ)
  | some side, some direction => some (side.1, direction)
  | _, _ => none

/-- `post` -/
def post (account : Option (Id × Account)) (cashAccount : Option (Id × CashAccount))
    (direction : Option Direction) (cashDirection : Option CashDirection) (amount : Decimal)
    (currency : String) (date : Date) (source : MovementSource) (document : DocumentRef) :
    LedgerProg (Id × Movement) := do
  require (decide (source ≠ .reversal)) (invalid "source" "Not a source a posting can have.")
  require (account.isSome || cashAccount.isSome)
    (invalid "account" "A movement needs an account, a cash account, or both.")
  require (account.isSome == direction.isSome)
    (invalid "direction" "A direction is required with an account, and only then.")
  require (cashAccount.isSome == cashDirection.isSome)
    (invalid "cash_direction" "A cash direction is required with a cash account, and only then.")
  require amount.isMoney (invalid "amount" "An amount is positive, to two decimal places.")
  let companies := (account.map (·.2.company)).toList ++ (cashAccount.map (·.2.company)).toList
  let currencies := (account.map (·.2.currency)).toList ++ (cashAccount.map (·.2.currency)).toList
  match companies.dedup with
  | [company] => do
      require (currencies.all (fun c => decide (c = currency)))
        (.fieldError "currency" .currencyMismatch)
      checkDate company date
      lockSides (account.map (·.1)).toList (cashAccount.map (·.1)).toList
      if source = .opening then pure ()
      else checkAfterOpening (account.map (·.1)) (cashAccount.map (·.1)) date
      let id ← fresh
      let movement : Movement :=
        { company := company, account := sided account direction,
          cashAccount := sided cashAccount cashDirection, date := date,
          amount := amount.cents?.getD 0, currency := currency, source := source,
          document := document, reverses := none }
      write (Books.addMovement id movement)
      return (id, movement)
  | _ => .raise (invalid "cash_account" "The account and the cash account belong to one firm.")

/-- `reverse_document`: the mirror of each movement not reversed yet.  The
caller holds the document. -/
def reverseDocument (document : DocumentRef) (date : Date) (source : MovementSource) :
    LedgerProg (Rows Movement) := do
  require (decide (source = .reversal) || decide (source = .invoiceCancel))
    (invalid "source" "Not a source a reversal can have.")
  let originals ← observe (fun v => v.unreversedOriginals document) .integrityError
  let _ ← forEach originals (fun original => lock .update (.movement original.1))
  match originals.head? with
  | none => .raise (.conflict .alreadyReversed)
  | some first => do
      checkDate first.2.company date
      forEach originals (fun original => do
        let id ← fresh
        let mirror := original.2.mirror original.1 date source
        write (Books.addMovement id mirror)
        return (id, mirror))

/-- The rows a movement refers to, in the order of its columns. -/
def Movement.references (m : Movement) : List Row :=
  .company m.company :: ((m.account.map (fun side => Row.account side.1)).toList ++
    (m.cashAccount.map (fun side => Row.cashAccount side.1)).toList)

/-- The foreign keys of the movements a transaction wrote, checked when it
commits, in the order it wrote them.  Every other row its writes refer to it
has locked for update, or written itself. -/
def checkForeignKeys (written : Rows Movement) : LedgerProg Unit := do
  let _ ← forEach (written.flatMap (fun r => r.2.references)) (fun row => lock .keyShare row)
  return ()

end Ledger
end Shiftlush
