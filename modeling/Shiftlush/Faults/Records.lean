import Shiftlush.Fleet.Records

namespace Shiftlush
namespace Faults

open Calendar (Date)
open Fleet (FaultStatus FaultChannel FaultPriority)

/-!
# A fault and its stamps

The whole row of a fault.  A moment is in seconds since the epoch, and every
date is the one in Istanbul.
-/

/-- `LOCAL_TZ`, in seconds. -/
def localOffset : Nat := 3 * 3600

def epoch : Date := .first (12 * 1970)

/-- `_local_date` -/
def localDate (moment : Nat) : Date := epoch.addDays ((moment + localOffset) / 86400)

/-- `_day_start` -/
def dayStart (day : Date) : Nat := (86400 * (day.ordinal - epoch.ordinal) - localOffset).toNat

/-- A later report merged into a fault. -/
structure AdditionalReport where
  reportedAt : Nat
  description : String
  someoneTrapped : Bool
  elevatorStopped : Bool
  deriving DecidableEq

structure Fault where
  elevator : Nat
  reference : String
  channel : FaultChannel
  reportedBy : Option Nat
  reporterName : String
  reporterPhone : String
  description : String
  additionalReports : List AdditionalReport
  priority : FaultPriority
  status : FaultStatus
  technician : Option Nat
  reportedAt : Nat
  assignedAt : Option Nat
  onSiteAt : Option Nat
  resolvedAt : Option Nat
  closedAt : Option Nat
  cancelledAt : Option Nat
  cancelReason : String
  resolutionNotes : String
  partsUsed : String
  /-- `none` until `resolve` derives it or the office states it. -/
  billable : Option Bool
  billableOverridden : Bool
  stoppedElevator : Bool
  deriving DecidableEq

/-! ## Days and moments -/

/-- A day starts at the first moment of its date. -/
theorem dayStart_le_iff {day : Date} {moment : Nat} : dayStart day ≤ moment ↔ day ≤ localDate moment := by
  have days : (localDate moment).ordinal = epoch.ordinal + ((moment + localOffset) / 86400 : Nat) :=
    Date.ordinal_addDays epoch _
  rw [Date.le_iff, days]
  unfold dayStart localOffset
  omega

theorem lt_dayStart_iff {day : Date} {moment : Nat} : moment < dayStart day ↔ localDate moment < day := by
  rw [← not_le, dayStart_le_iff, not_le]

theorem localDate_dayStart {day : Date} (after : epoch < day) : localDate (dayStart day) = day := by
  apply le_antisymm _ (dayStart_le_iff.mp le_rfl)
  have short : dayStart day < dayStart day.next := by
    rw [Date.lt_iff] at after
    unfold dayStart localOffset
    rw [Date.ordinal_next]
    omega
  have before := lt_dayStart_iff.mp short
  rw [Date.lt_iff, Date.ordinal_next] at before
  rw [Date.le_iff]
  omega

theorem localDate_mono {moment moment' : Nat} (le : moment ≤ moment') : localDate moment ≤ localDate moment' :=
  dayStart_le_iff.mp ((dayStart_le_iff.mpr le_rfl).trans le)

end Faults
end Shiftlush
