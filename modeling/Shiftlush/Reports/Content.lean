import Mathlib.Data.List.Sort
import Shiftlush.Faults.Records

namespace Shiftlush
namespace Reports

open Calendar (Date monthBounds)
open Fleet (Contract ContractElevator FaultStatus FaultPriority)
open Faults (Fault localDate dayStart)

/-!
# The faults of a customer's month

Coverage and the faults of `build_report`.  What is carried from one month into
the next is the same set of faults in both reports, as far as the lines that
covered them are read in both.
-/

/-- The rows the reports of a customer read.  Nothing is resolved before it is
reported. -/
structure Database where
  contracts : Rows Contract
  lines : Rows ContractElevator
  /-- The lifts that are not deleted, in route order. -/
  elevators : List Nat
  faults : Rows Fault
  resolved : ∀ r ∈ faults, ∀ moment, r.2.resolvedAt = some moment -> r.2.reportedAt ≤ moment

/-! ## Coverage -/

/-- The days a line covers its lift, under its contract. -/
def coverage (line : ContractElevator) (contract : Contract) : Date × Date :=
  (max line.addedAt contract.startDate, min (line.removedAt.getD contract.endDate) contract.endDate)

/-- Whether a line of a lift is read for the days `start` through `finish`. -/
def isListed (start finish : Date) (customer elevator : Nat) (line : ContractElevator) (contract : Contract) : Bool :=
  decide (contract.customer = customer ∧ line.elevator = elevator ∧ contract.status ≠ .draft ∧
    contract.startDate ≤ finish ∧ start ≤ contract.endDate ∧ line.addedAt ≤ finish) &&
    line.removedAt.all (fun day => decide (start ≤ day))

/-- `_covered_days`, of one lift. -/
def Database.coveredDays (db : Database) (start finish : Date) (customer elevator : Nat) : List (Date × Date) :=
  db.lines.filterMap (fun r => (db.contracts.get? r.2.contract).bind (fun contract =>
    if isListed start finish customer elevator r.2 contract ∧
        (coverage r.2 contract).1 ≤ (coverage r.2 contract).2 then
      some (coverage r.2 contract)
    else none))

/-- `_is_covered` -/
def isCovered (ranges : List (Date × Date)) (day : Date) : Bool :=
  ranges.any (fun range => decide (range.1 ≤ day ∧ day ≤ range.2))

/-! ## Faults -/

/-- Whether a stamp is set, on a day up to `finish`. -/
def isBy (finish : Date) (stamp : Option Nat) : Bool := stamp.any (fun moment => decide (localDate moment ≤ finish))

def isOpened (month : Int) (fault : Fault) : Bool := decide (dayStart (monthBounds month).1 ≤ fault.reportedAt)

def isResolved (month : Int) (fault : Fault) : Bool :=
  fault.resolvedAt.any (fun moment =>
    decide ((monthBounds month).1 ≤ localDate moment ∧ localDate moment ≤ (monthBounds month).2))

def isUnresolved (month : Int) (fault : Fault) : Bool := !isBy (monthBounds month).2 fault.resolvedAt

/-- Reported by the end of the month, and not resolved. -/
def isOpenAt (month : Int) (fault : Fault) : Bool :=
  decide (localDate fault.reportedAt ≤ (monthBounds month).2) && isUnresolved month fault

/-- `_fault_status_at` -/
def faultStatusAt (fault : Fault) (finish : Date) : FaultStatus :=
  if isBy finish fault.closedAt then .closed
  else if isBy finish fault.resolvedAt then .resolved
  else if isBy finish fault.onSiteAt then .onSite
  else if isBy finish fault.assignedAt then .assigned
  else .open

structure FaultLine where
  reference : String
  reportedAt : Nat
  trapped : Bool
  description : String
  status : FaultStatus
  responseMinutes : Option Int
  deriving DecidableEq

def FaultLine.of (finish : Date) (fault : Fault) : FaultLine where
  reference := fault.reference
  reportedAt := fault.reportedAt
  trapped := decide (fault.priority = .emergency)
  description := fault.description
  status := faultStatusAt fault finish
  responseMinutes := fault.onSiteAt.map (fun onSiteAt => ((onSiteAt : Int) - fault.reportedAt) / 60)

/-- The order `reported_at, id`. -/
def reportedBefore (r r' : Nat × Fault) : Prop :=
  r.2.reportedAt < r'.2.reportedAt ∨ (r.2.reportedAt = r'.2.reportedAt ∧ r.1 ≤ r'.1)

instance : DecidableRel reportedBefore := fun _ _ => inferInstanceAs (Decidable (_ ∨ _))

structure LiftSection where
  elevator : Nat
  faults : List FaultLine
  deriving DecidableEq

structure ReportSummary where
  lifts : Nat
  faultsOpened : Nat
  faultsResolved : Nat
  faultsOpenAtEnd : Nat
  emergencies : Nat
  deriving DecidableEq

structure ReportData where
  period : Int
  summary : ReportSummary
  lifts : List LiftSection
  deriving DecidableEq

namespace Database

variable (db : Database) (customer : Nat) (month : Int)

def covered (elevator : Nat) : List (Date × Date) :=
  db.coveredDays (monthBounds month).1 (monthBounds month).2 customer elevator

def lifts : List Nat := db.elevators.filter (fun elevator => decide (db.covered customer month elevator ≠ []))

/-- The faults that may belong to the month. -/
def isRead (fault : Fault) : Bool :=
  decide (fault.elevator ∈ db.lifts customer month) &&
    decide (fault.reportedAt < dayStart (monthBounds month).2.next) && decide (fault.status ≠ .cancelled) &&
    (decide (dayStart (monthBounds month).1 ≤ fault.reportedAt) || fault.resolvedAt.isNone ||
      fault.resolvedAt.any (fun moment => decide (dayStart (monthBounds month).1 ≤ moment)))

/-- A fault counts only if its lift was covered the day it was reported. -/
def monthFaults : Rows Fault :=
  (List.insertionSort reportedBefore (db.faults.filter (fun r => db.isRead customer month r.2))).filter (fun r =>
    isCovered (db.covered customer month r.2.elevator) (localDate r.2.reportedAt))

def opened : Rows Fault := (db.monthFaults customer month).filter (fun r => isOpened month r.2)

def resolvedIn : Rows Fault := (db.monthFaults customer month).filter (fun r => isResolved month r.2)

def openAtEnd : Rows Fault := (db.monthFaults customer month).filter (fun r => isUnresolved month r.2)

/-- `build_report` -/
def buildReport : ReportData where
  period := month
  summary := {
    lifts := (db.lifts customer month).length
    faultsOpened := (db.opened customer month).length
    faultsResolved := (db.resolvedIn customer month).length
    faultsOpenAtEnd := (db.openAtEnd customer month).length
    emergencies := ((db.opened customer month).filter (fun r => decide (r.2.priority = .emergency))).length }
  lifts := (db.lifts customer month).map (fun elevator => ⟨elevator,
    ((db.opened customer month).filter (fun r => decide (r.2.elevator = elevator))).map (fun r =>
      .of (monthBounds month).2 r.2)⟩)

/-! ## Coverage, whatever the month -/

/-- The lift is covered on the day, by a line that ends on `start` or later. -/
def CoveredInto (elevator : Nat) (day start : Date) : Prop :=
  ∃ r ∈ db.lines, ∃ contract, db.contracts.get? r.2.contract = some contract ∧ contract.customer = customer ∧
    r.2.elevator = elevator ∧ contract.status ≠ .draft ∧ start ≤ contract.endDate ∧
    (∀ removed, r.2.removedAt = some removed -> start ≤ removed) ∧
    (coverage r.2 contract).1 ≤ day ∧ day ≤ (coverage r.2 contract).2

/-- The lift is covered on the day. -/
def CoveredOn (elevator : Nat) (day : Date) : Prop := db.CoveredInto customer elevator day day

/-- From its first covered day through `finish`, every lift is covered without a gap. -/
def Unbroken (finish : Date) : Prop :=
  ∀ elevator ∈ db.elevators, ∀ day, db.CoveredOn customer elevator day -> ∀ later, day ≤ later -> later ≤ finish ->
    db.CoveredOn customer elevator later

/-- The fault counts for a month: it stands, and its day was covered by a line that
reaches into the month. -/
structure Counts (fault : Fault) : Prop where
  live : fault.elevator ∈ db.elevators
  stands : fault.status ≠ .cancelled
  covered : db.CoveredInto customer fault.elevator (localDate fault.reportedAt) (monthBounds month).1

/-- A fault that is open at the end of the month and counts for it counts for the next. -/
def CarriesOver : Prop :=
  ∀ r ∈ db.faults, isOpenAt month r.2 = true -> db.Counts customer month r.2 ->
    db.Counts customer (month + 1) r.2

end Database
end Reports
end Shiftlush
