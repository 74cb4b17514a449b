import Shiftlush.Fleet.Services
import Shiftlush.Transactions.Machine

namespace Shiftlush
namespace Fleet

open Calendar (Date)
open Transactions

/-!
# Closing a contract, statement by statement

The requests that end a contract, and the edits beside them, as sessions of one
database.  The view or the nightly task loads the contract before the service
opens its transaction, and no statement locks or reads it again: what is decided
is decided on the row as it was loaded, and saved over the row as it is.
-/

/-- `closings` has an entry for each time a contract was terminated or renewed.
No statement reads it. -/
structure Agreements where
  contracts : Rows Contract
  lines : Rows ContractElevator
  elevators : Rows Elevator
  closings : List Nat
  deriving DecidableEq

/-! ## The columns a save writes -/

def Contract.terminated (terminatedAt : Date) (reason : String) (contract : Contract) : Contract :=
  { contract with
    status := .terminated
    terminatedAt := some terminatedAt
    terminationReason := reason
    autoRenew := false }

def Contract.renewed (contract : Contract) : Contract := { contract with status := .renewed }

def Contract.expired (contract : Contract) : Contract := { contract with status := .expired }

def Contract.activated (contract : Contract) : Contract := { contract with status := .active }

def ContractElevator.closed (day : Date) (line : ContractElevator) : ContractElevator :=
  { line with removedAt := some day }

def Elevator.uncontracted (lift : Elevator) : Elevator := { lift with status := .uncontracted }

namespace Agreements

def openLines (v : Agreements) (contract : Nat) : Rows ContractElevator :=
  v.lines.filter (openLine contract)

def isHeld (v : Agreements) (elevator : Nat) : Bool :=
  v.lines.any (fun r => decide (r.2.elevator = elevator) && r.2.isOpen)

def setContract (id : Nat) (f : Contract -> Contract) (v : Agreements) : Agreements :=
  { v with contracts := v.contracts.update id f }

/-- A save that terminates or renews the contract. -/
def close (id : Nat) (f : Contract -> Contract) (v : Agreements) : Agreements :=
  { v with contracts := v.contracts.update id f, closings := id :: v.closings }

def addContract (id : Nat) (contract : Contract) (v : Agreements) : Agreements :=
  { v with contracts := v.contracts.insert id contract }

def closeLine (id : Nat) (day : Date) (v : Agreements) : Agreements :=
  { v with lines := v.lines.update id (ContractElevator.closed day) }

def addLine (id : Nat) (line : ContractElevator) (v : Agreements) : Agreements :=
  { v with lines := v.lines.insert id line }

def uncontract (elevator : Nat) (v : Agreements) : Agreements :=
  { v with elevators := v.elevators.update elevator Elevator.uncontracted }

end Agreements

/-- The rows statements lock: an `UPDATE` the row it writes, an `INSERT` of an
open line the lift's entry in `uq_elevator_active_contract`. -/
inductive Row where
  | contract (id : Nat)
  | line (id : Nat)
  | elevator (id : Nat)
  | openEntry (elevator : Nat)
  deriving DecidableEq, Repr

/-- A contract as it was loaded. -/
abbrev Loaded := Nat × Contract

abbrev ContractProg (α : Type) := Prog Agreements Row Loaded Failure α

/-- `get_object`, or the query of the nightly task. -/
def loadContract (id : Nat) : ContractProg Contract := do
  let found ← peekLogged (fun v : Agreements => v.contracts.get? id)
    (fun found => found.toList.map (fun contract => (id, contract)))
  match found with
  | some contract => return contract
  | none => .raise .notFound

def saveClosedLine (id : Nat) (day : Date) : ContractProg Unit := do
  lock .update (.line id)
  write (Agreements.closeLine id day)

def saveUncontracted (elevator : Nat) : ContractProg Unit := do
  lock .update (.elevator elevator)
  write (Agreements.uncontract elevator)

/-- The loop of `terminate` and of `expire`. -/
def letGo (id : Nat) (day : Date) : ContractProg Unit := do
  let lines ← peek (fun v : Agreements => v.openLines id)
  let _ ← forEach lines (fun r => do
    saveClosedLine r.1 day
    saveUncontracted r.2.elevator)
  return ()

/-- `terminate` -/
def terminate (id : Nat) (terminatedAt : Date) (reason : String) : ContractProg Unit := do
  let contract ← loadContract id
  if isBlank reason then .raise .terminationReasonRequired
  else if contract.status.isClosed then .raise .validationError
  else do
    letGo id terminatedAt
    lock .update (.contract id)
    write (Agreements.close id (Contract.terminated terminatedAt reason))

/-- `ContractElevator.objects.create` in `renew`. -/
def createLine (successor : Nat) (startDate : Date) (copyTerms : Bool) (line : ContractElevator) :
    ContractProg Unit := do
  let key ← fresh
  lock .update (.openEntry line.elevator)
  let held ← peek (fun v : Agreements => v.isHeld line.elevator)
  if held then .raise .integrityError
  else write (Agreements.addLine key
    ⟨successor, line.elevator, if copyTerms then line.unitPrice else none, startDate, none⟩)

/-- The loop of `renew`. -/
def passOn (id successor : Nat) (startDate : Date) (carryElevators copyTerms : Bool) :
    ContractProg Unit := do
  let lines ← peek (fun v : Agreements => v.openLines id)
  let _ ← forEach lines (fun r => do
    saveClosedLine r.1 startDate
    if carryElevators then createLine successor startDate copyTerms r.2
    else saveUncontracted r.2.elevator)
  return ()

/-- `renew` of a contract that has been loaded, with the key of the successor. -/
def renewLoaded (id : Nat) (contract : Contract) (startDate endDate : Date)
    (carryElevators copyTerms : Bool) : ContractProg Nat := do
  if contract.status.isClosed then .raise .validationError
  else if endDate ≤ startDate then .raise .endDateBeforeStartDate
  else do
    let successor ← fresh
    write (Agreements.addContract successor (contract.successor id startDate endDate copyTerms))
    passOn id successor startDate carryElevators copyTerms
    lock .update (.contract id)
    write (Agreements.close id Contract.renewed)
    return successor

/-- `renew` -/
def renew (id : Nat) (startDate endDate : Date) (carryElevators copyTerms : Bool) :
    ContractProg Unit := do
  let contract ← loadContract id
  let _ ← renewLoaded id contract startDate endDate carryElevators copyTerms
  return ()

/-- An ACTIVE contract whose end date has passed. -/
def Contract.isOverdue (contract : Contract) (today : Date) : Bool :=
  decide (contract.status = .active ∧ contract.endDate < today)

/-- `expire` -/
def expire (id : Nat) (today : Date) : ContractProg Unit := do
  let contract ← loadContract id
  if contract.isOverdue today then
    if contract.autoRenew then do
      let term := nextTerm contract.startDate contract.endDate
      let successor ← renewLoaded id contract term.1 term.2 true true
      if contract.vatRate.isNone then return ()
      else write (Agreements.setContract successor Contract.activated)
    else do
      letGo id contract.endDate.next
      lock .update (.contract id)
      write (Agreements.setContract id Contract.expired)
  else return ()

/-- A PATCH: the serializer saves every column of the row it was given. -/
def editContract (id : Nat) (changes : ContractChanges) : ContractProg Unit := do
  let contract ← loadContract id
  match checkContract changes.status (changes.apply contract) with
  | .error failure => .raise failure
  | .ok () => do
      lock .update (.contract id)
      write (Agreements.setContract id (fun _ => changes.apply contract))

inductive Request where
  | terminate (id : Nat) (terminatedAt : Date) (reason : String)
  | renew (id : Nat) (startDate endDate : Date) (carryElevators copyTerms : Bool)
  /-- The nightly task comes to the contract. -/
  | expire (id : Nat) (today : Date)
  | edit (id : Nat) (changes : ContractChanges)
  deriving DecidableEq

def serve : Request -> ContractProg Unit
  | .terminate id terminatedAt reason => terminate id terminatedAt reason
  | .renew id startDate endDate carryElevators copyTerms =>
      renew id startDate endDate carryElevators copyTerms
  | .expire id today => expire id today
  | .edit id changes => editContract id changes

end Fleet
end Shiftlush
