import Shiftlush.Calendar
import Shiftlush.Rows
import Shiftlush.Money

namespace Shiftlush
namespace Fleet

open Calendar (Date)

/-!
# Lifts, contracts, inspections and faults

The rows of one firm, with the columns its services read.  An open contract
line is one with no `removed_at`, and the unique index allows one for each lift.
-/

/-! ## Contracts -/

inductive ContractStatus where
  | draft
  | active
  | expired
  | terminated
  | renewed
  deriving DecidableEq, Repr

/-- A finished contract "cannot go on holding elevators". -/
def ContractStatus.isFinished : ContractStatus -> Bool
  | .draft => false
  | .active => false
  | .expired => true
  | .terminated => true
  | .renewed => true

/-- The two that `terminate` and `renew` refuse, and no user can select. -/
def ContractStatus.isClosed : ContractStatus -> Bool
  | .terminated => true
  | .renewed => true
  | _ => false

inductive Scope where
  | maintenanceOnly
  | maintenanceAndRepair
  | fullCoverage
  deriving DecidableEq, Repr

inductive PricingType where
  | perElevator
  | flat
  deriving DecidableEq, Repr

inductive BillingPeriod where
  | monthly
  | quarterly
  | semiannual
  | annual
  deriving DecidableEq, Repr

structure Contract where
  customer : Nat
  status : ContractStatus
  scope : Scope
  startDate : Date
  endDate : Date
  pricingType : PricingType
  monthlyFee : Option Cents
  currency : String
  /-- Hundredths of a percent. -/
  vatRate : Option Int
  billingPeriod : BillingPeriod
  autoRenew : Bool
  renewalNoticeDays : Int
  previousContract : Option Nat
  terminatedAt : Option Date
  terminationReason : String
  notes : String
  deriving DecidableEq

/-- One lift's membership of one contract. -/
structure ContractElevator where
  contract : Nat
  elevator : Nat
  unitPrice : Option Cents
  addedAt : Date
  removedAt : Option Date
  deriving DecidableEq

def ContractElevator.isOpen (line : ContractElevator) : Bool := line.removedAt.isNone

/-! ## Lifts -/

inductive ElevatorStatus where
  | active
  | suspended
  | sealed
  | outOfService
  | uncontracted
  deriving DecidableEq, Repr

/-- `InspectionLabel`, as a lift carries it. -/
inductive InspectionLabel where
  | green
  | blue
  | yellow
  | red
  | none
  deriving DecidableEq, Repr

/-- `Label`, as an inspector gives it. -/
inductive Label where
  | green
  | blue
  | yellow
  | red
  deriving DecidableEq, Repr

/-- `RULES[label].usable` -/
def Label.usable : Label -> Bool
  | .red => false
  | _ => true

def Label.toInspectionLabel : Label -> InspectionLabel
  | .green => .green
  | .blue => .blue
  | .yellow => .yellow
  | .red => .red

structure Elevator where
  status : ElevatorStatus
  lastInspectionDate : Option Date
  inspectionLabel : InspectionLabel
  nextInspectionDate : Option Date
  inspectionBody : String
  inspectionReportNumber : String
  deriving DecidableEq

/-! ## Inspections -/

structure Inspection where
  elevator : Nat
  inspectedOn : Date
  /-- The clock, in whatever unit. -/
  createdAt : Nat
  label : Label
  nextInspectionDue : Date
  inspectionBody : String
  reportNumber : String
  deriving DecidableEq

/-! ## Faults -/

inductive FaultStatus where
  | open
  | assigned
  | onSite
  | resolved
  | closed
  | cancelled
  deriving DecidableEq, Repr

inductive FaultChannel where
  | staff
  | publicQr
  | customerPortal
  deriving DecidableEq, Repr

inductive FaultPriority where
  | emergency
  | high
  | normal
  deriving DecidableEq, Repr

structure Fault where
  elevator : Nat
  channel : FaultChannel
  priority : FaultPriority
  status : FaultStatus
  technician : Option Nat
  reportedOn : Date
  /-- The clock, for the window in which public reports are merged. -/
  reportedAt : Nat
  closedOn : Option Date
  /-- The clock, which orders the repairs of a draft. -/
  closedAt : Option Nat
  stoppedElevator : Bool
  partsUsed : String
  /-- `none` until `resolve` derives it or the office states it. -/
  billable : Option Bool
  billableOverridden : Bool
  deriving DecidableEq

/-- `CANCELLABLE`: the work is not done. -/
def FaultStatus.isCancellable : FaultStatus -> Bool
  | .open => true
  | .assigned => true
  | .onSite => true
  | _ => false

end Fleet
end Shiftlush
