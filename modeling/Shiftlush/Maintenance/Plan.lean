import Shiftlush.Outcomes
import Shiftlush.Transitions
import Shiftlush.Rows
import Shiftlush.Calendar

namespace Shiftlush
namespace Maintenance

open Calendar (Date monthBounds)

/-!
# Visits and the monthly plan

`apps.maintenance.services` and the requests that call it.  A lift carries its
next maintenance date and a month one planned row for it, and both are computed
again from the visits that survive.  Which contracts cover which lifts, and which
technicians a customer has, are told by others.
-/

inductive VisitStatus where
  | completed
  | incomplete
  | accessDenied
  deriving DecidableEq, Repr

/-- `MaintenanceVisit` -/
structure Visit where
  elevator : Nat
  contract : Nat
  technician : Nat
  visitDate : Date
  status : VisitStatus
  deriving DecidableEq

inductive PlannedVisitStatus where
  | planned
  | done
  | cancelled
  deriving DecidableEq, Repr

/-- A row for a lift and a month; no two share both. -/
structure PlannedVisit where
  elevator : Nat
  period : Int
  dueDate : Date
  plannedDate : Option Date
  technician : Option Nat
  status : PlannedVisitStatus
  visit : Option Nat
  manuallyEdited : Bool
  deriving DecidableEq

structure Elevator where
  customer : Nat
  maintenanceIntervalDays : Nat
  lastMaintenanceDate : Option Date
  nextMaintenanceDate : Option Date
  deriving DecidableEq

structure Plan where
  /-- `local_today` -/
  today : Date
  elevators : Rows Elevator
  /-- The open lines of active contracts: contract and lift. -/
  lines : List (Nat × Nat)
  /-- The active technicians of the customers: customer and user. -/
  userCustomers : List (Nat × Nat)
  /-- The visits that are not deleted. -/
  visits : Rows Visit
  planned : Rows PlannedVisit
  nextId : Nat

inductive Failure where
  | notFound
  | validationError
  | noActiveContractForElevator
  | planRowClosed
  | plannedDateOutsidePeriod
  | plannedDateInPast
  deriving DecidableEq, Repr

/-! ## Periods -/

/-- `due_date_in` -/
def dueDateIn (period : Int) : Option Date -> Date
  | none => ⟨period, 14, Calendar.fifteenth period⟩
  | some day => min day (monthBounds period).2

/-! ## Visits -/

/-- The order `-visit_date, -id`. -/
def later (a b : Nat × Visit) : Bool :=
  decide (b.2.visitDate < a.2.visitDate) || decide (a.2.visitDate = b.2.visitDate ∧ b.1 < a.1)

def laterOf (best : Option (Nat × Visit)) (r : Nat × Visit) : Option (Nat × Visit) :=
  match best with
  | none => some r
  | some b => if later r b then some r else some b

/-- The first in that order. -/
def latest (visits : Rows Visit) : Option (Nat × Visit) := visits.foldl laterOf none

def isCompleted (r : Nat × Visit) : Bool := decide (r.2.status = .completed)

namespace Plan

variable (v : Plan)

def completedOf (elevator : Nat) : Rows Visit :=
  v.visits.filter (fun r => decide (r.2.elevator = elevator) && isCompleted r)

/-- The visits of a lift in a month. -/
def visitsIn (elevator : Nat) (period : Int) : Rows Visit :=
  v.visits.filter (fun r => decide (r.2.elevator = elevator ∧ (monthBounds period).1 ≤ r.2.visitDate ∧
    r.2.visitDate ≤ (monthBounds period).2))

def getElevator (elevator : Nat) : Except Failure Elevator :=
  match v.elevators.get? elevator with
  | some lift => .ok lift
  | none => .error .notFound

/-- `ensure_active_contract` -/
def ensureActiveContract (elevator contract : Nat) : Except Failure Unit :=
  if (contract, elevator) ∈ v.lines then .ok () else .error .noActiveContractForElevator

/-- `refresh_planned_due_dates` -/
def refreshPlannedDueDates (elevator : Nat) : Plan :=
  match v.elevators.get? elevator with
  | none => v
  | some lift => { v with
      planned := v.planned.updateWhere
        (fun _ row => decide (row.elevator = elevator ∧ row.status = .planned ∧ row.manuallyEdited = false ∧
          v.today.month ≤ row.period))
        (fun row => { row with dueDate := dueDateIn row.period lift.nextMaintenanceDate }) }

/-- The lift with the dates its visits give it. -/
def reckoned (elevator : Nat) (lift : Elevator) : Elevator :=
  match latest (v.completedOf elevator) with
  | none => { lift with lastMaintenanceDate := none, nextMaintenanceDate := none }
  | some visit => { lift with
      lastMaintenanceDate := some visit.2.visitDate
      nextMaintenanceDate := some (visit.2.visitDate.addDays lift.maintenanceIntervalDays) }

/-- `recalculate_next_maintenance` -/
def recalculateNextMaintenance (elevator : Nat) : Plan :=
  let saved : Plan := { v with elevators := v.elevators.update elevator (v.reckoned elevator) }
  saved.refreshPlannedDueDates elevator

/-- The status and the link that the visits of a lift in a month give its row. -/
def outcome (elevator : Nat) (period : Int) : PlannedVisitStatus × Option Nat :=
  match latest ((v.visitsIn elevator period).filter isCompleted) with
  | some completed => (.done, some completed.1)
  | none => (.planned, (latest (v.visitsIn elevator period)).map Prod.fst)

/-- `sync_planned_visit` -/
def syncPlannedVisit (elevator : Nat) (day : Date) : Plan := { v with
  planned := v.planned.updateWhere
    (fun _ row => decide (row.elevator = elevator ∧ row.period = day.month ∧ row.status ≠ .cancelled))
    (fun row => { row with
      status := (v.outcome elevator day.month).1
      visit := (v.outcome elevator day.month).2 }) }

/-- `sync_plan_for_visit`, of a visit where it is and where it was. -/
def syncPlanForVisit (visit : Visit) (before : Option (Nat × Date)) : Plan :=
  let synced := v.syncPlannedVisit visit.elevator visit.visitDate
  match before with
  | none => synced
  | some (elevator, day) =>
      if elevator = visit.elevator ∧ day.month = visit.visitDate.month then synced
      else synced.syncPlannedVisit elevator day

/-! ## Recording visits -/

/-- `perform_create` -/
def recordVisit (visit : Visit) : Except Failure Plan := do
  let _ ← v.getElevator visit.elevator
  v.ensureActiveContract visit.elevator visit.contract
  let saved : Plan := { v with visits := v.visits.insert v.nextId visit, nextId := v.nextId + 1 }
  .ok ((saved.recalculateNextMaintenance visit.elevator).syncPlanForVisit visit none)

end Plan

structure VisitChanges where
  elevator : Option Nat
  contract : Option Nat
  technician : Option Nat
  visitDate : Option Date
  status : Option VisitStatus
  deriving DecidableEq

def VisitChanges.apply (changes : VisitChanges) (visit : Visit) : Visit where
  elevator := changes.elevator.getD visit.elevator
  contract := changes.contract.getD visit.contract
  technician := changes.technician.getD visit.technician
  visitDate := changes.visitDate.getD visit.visitDate
  status := changes.status.getD visit.status

namespace Plan

variable (v : Plan)

/-- `perform_update` -/
def editVisit (id : Nat) (changes : VisitChanges) : Except Failure Plan :=
  match v.visits.get? id with
  | none => .error .notFound
  | some instance_ => do
      let visit := changes.apply instance_
      let _ ← v.getElevator visit.elevator
      v.ensureActiveContract visit.elevator visit.contract
      let saved : Plan := { v with visits := v.visits.update id (fun _ => visit) }
      let here := saved.recalculateNextMaintenance visit.elevator
      let both := if instance_.elevator = visit.elevator then here
        else here.recalculateNextMaintenance instance_.elevator
      .ok (both.syncPlanForVisit visit (some (instance_.elevator, instance_.visitDate)))

/-- `perform_destroy` -/
def deleteVisit (id : Nat) : Except Failure Plan :=
  match v.visits.get? id with
  | none => .error .notFound
  | some visit =>
      let saved : Plan := { v with visits := v.visits.filter (fun r => decide (r.1 ≠ id)) }
      .ok ((saved.recalculateNextMaintenance visit.elevator).syncPlanForVisit visit none)

end Plan

/-! ## Editing the plan -/

structure PlannedVisitChanges where
  technician : Option (Option Nat)
  plannedDate : Option (Option Date)
  deriving DecidableEq

def PlannedVisitChanges.apply (changes : PlannedVisitChanges) (row : PlannedVisit) : PlannedVisit :=
  { row with
    technician := changes.technician.getD row.technician
    plannedDate := changes.plannedDate.getD row.plannedDate }

/-- `PlannedVisitWriteSerializer.validate` -/
def PlannedVisitChanges.validate (changes : PlannedVisitChanges) (today : Date) (row : PlannedVisit) :
    Except Failure Unit :=
  match changes.plannedDate with
  | none => .ok ()
  | some planned =>
      if planned = row.plannedDate then .ok ()
      else if row.status ≠ .planned then .error .planRowClosed
      else
        match planned with
        | none => .ok ()
        | some day =>
            if day.month ≠ row.period then .error .plannedDateOutsidePeriod
            else if day < today then .error .plannedDateInPast
            else .ok ()

namespace Plan

variable (v : Plan)

/-- `edit_planned_visit` -/
def editPlannedVisit (id : Nat) (changes : PlannedVisitChanges) : Except Failure Plan :=
  match v.planned.get? id with
  | none => .error .notFound
  | some row => do
      changes.validate v.today row
      .ok { v with planned := v.planned.update id (fun row => { changes.apply row with manuallyEdited := true }) }

/-- `bulk_assign` -/
def bulkAssign (ids : List Nat) (technician : Nat) : Except Failure Plan :=
  if ids ≠ [] ∧ ids.all (fun id => (v.planned.get? id).isSome) then
    .ok { v with
      planned := v.planned.updateWhere (fun id _ => decide (id ∈ ids)) (fun row =>
        { row with technician := some technician, manuallyEdited := true }) }
  else .error .notFound

/-! ## Generation -/

/-- `_covered_elevators` -/
def coveredElevators : Rows Elevator := v.elevators.filter (fun r => v.lines.any (fun line => decide (line.2 = r.1)))

/-- `_default_technicians`, of one customer. -/
def defaultTechnician (customer : Nat) : Option Nat :=
  match ((v.userCustomers.filter (fun r => decide (r.1 = customer))).map Prod.snd).dedup with
  | [technician] => some technician
  | _ => none

end Plan

inductive Field where
  | status
  | dueDate
  | technician
  deriving DecidableEq, Repr

/-- `_follow_the_facts`: the row, and what changed of it. -/
def followTheFacts (row : PlannedVisit) (due : Date) (default : Option Nat) : PlannedVisit × List Field :=
  let reopened : PlannedVisit × List Field :=
    if row.status = .cancelled then ({ row with status := .planned }, [.status]) else (row, [])
  let dated : PlannedVisit × List Field :=
    if reopened.1.status = .planned ∧ reopened.1.dueDate ≠ due then
      ({ reopened.1 with dueDate := due }, reopened.2 ++ [.dueDate])
    else reopened
  if dated.1.status = .planned ∧ dated.1.technician = none ∧ default.isSome then
    ({ dated.1 with technician := default }, dated.2 ++ [.technician])
  else dated

/-- What one run of the generator did. -/
structure PlanRun where
  created : Nat
  updated : Nat
  cancelled : Nat
  /-- The rows given to technicians, with their month. -/
  assigned : List (Nat × Int)
  deriving DecidableEq

namespace Plan

variable (v : Plan)

/-- The row of a lift for a month. -/
def rowFor (elevator : Nat) (period : Int) : Option PlannedVisit :=
  (v.planned.find? (fun r => decide (r.2.elevator = elevator ∧ r.2.period = period))).map Prod.snd

/-- The statement that saves a row. -/
def saveRow (row : PlannedVisit) : Plan := { v with
  planned := v.planned.updateWhere
    (fun _ other => decide (other.elevator = row.elevator ∧ other.period = row.period)) (fun _ => row) }

/-- The loop over the covered lifts. -/
def planElevator (period : Int) (acc : Plan × PlanRun) (r : Nat × Elevator) : Plan × PlanRun :=
  let due := dueDateIn period r.2.nextMaintenanceDate
  let default := acc.1.defaultTechnician r.2.customer
  match acc.1.rowFor r.1 period with
  | none =>
      ({ acc.1 with
          planned := acc.1.planned.insert acc.1.nextId
            { elevator := r.1, period := period, dueDate := due, plannedDate := none, technician := default,
              status := .planned, visit := none, manuallyEdited := false }
          nextId := acc.1.nextId + 1 },
        { acc.2 with
          created := acc.2.created + 1
          assigned := acc.2.assigned ++ default.toList.map (fun technician => (technician, period)) })
  | some row =>
      if row.manuallyEdited then acc
      else
        let followed := followTheFacts row due default
        if followed.2 = [] then acc
        else
          let saved := acc.1.saveRow followed.1
          (if .status ∈ followed.2 then saved.syncPlannedVisit r.1 (monthBounds period).1 else saved,
            { acc.2 with
              updated := acc.2.updated + 1
              assigned := acc.2.assigned ++
                (if .technician ∈ followed.2 then followed.1.technician.toList else []).map (fun technician =>
                  (technician, period)) })

/-- A row that the loop over the rows cancels. -/
def losesCover (period : Int) (row : PlannedVisit) : Bool :=
  decide (row.period = period ∧ row.status = .planned ∧ row.manuallyEdited = false) &&
    !(v.coveredElevators.any (fun r => decide (r.1 = row.elevator)))

def planPeriod (acc : Plan × PlanRun) (period : Int) : Plan × PlanRun :=
  let planned := acc.1.coveredElevators.foldl (planElevator period) acc
  ({ planned.1 with
      planned := planned.1.planned.updateWhere (fun _ row => planned.1.losesCover period row) (fun row =>
        { row with status := .cancelled }) },
    { planned.2 with
      cancelled := planned.2.cancelled + planned.1.planned.countP (fun r => planned.1.losesCover period r.2) })

/-- `generate_plan` -/
def generatePlan : Plan × PlanRun :=
  [v.today.month, v.today.month + 1].foldl planPeriod (v, ⟨0, 0, 0, []⟩)

end Plan

/-! ## Events -/

inductive Event where
  /-- Days pass. -/
  | dawn (day : Date)
  /-- Contracts and teams change, elsewhere. -/
  | cover (lines : List (Nat × Nat))
  | team (userCustomers : List (Nat × Nat))
  | createElevator (customer maintenanceIntervalDays : Nat)
  | editElevator (id maintenanceIntervalDays : Nat)
  | recordVisit (visit : Visit)
  | editVisit (id : Nat) (changes : VisitChanges)
  | deleteVisit (id : Nat)
  | editPlannedVisit (id : Nat) (changes : PlannedVisitChanges)
  | bulkAssign (ids : List Nat) (technician : Nat)
  | generatePlan

namespace Plan

variable (v : Plan)

/-- The check constraint on the interval. -/
def checkInterval (maintenanceIntervalDays : Nat) : Except Failure Unit :=
  if 1 ≤ maintenanceIntervalDays ∧ maintenanceIntervalDays ≤ 30 then .ok () else .error .validationError

/-- `ElevatorWriteSerializer`, of a new lift. -/
def createElevator (customer maintenanceIntervalDays : Nat) : Except Failure Plan := do
  checkInterval maintenanceIntervalDays
  .ok { v with
    elevators := v.elevators.insert v.nextId
      { customer := customer, maintenanceIntervalDays := maintenanceIntervalDays, lastMaintenanceDate := none,
        nextMaintenanceDate := none }
    nextId := v.nextId + 1 }

/-- `ElevatorWriteSerializer`, of a lift that is there. -/
def editElevator (id maintenanceIntervalDays : Nat) : Except Failure Plan := do
  checkInterval maintenanceIntervalDays
  .ok { v with elevators := v.elevators.update id (fun lift =>
    { lift with maintenanceIntervalDays := maintenanceIntervalDays }) }

def attempt : Event -> Except Failure Plan
  | .dawn day => .ok { v with today := max v.today day }
  | .cover lines => .ok { v with lines := lines }
  | .team userCustomers => .ok { v with userCustomers := userCustomers }
  | .createElevator customer days => v.createElevator customer days
  | .editElevator id days => v.editElevator id days
  | .recordVisit visit => v.recordVisit visit
  | .editVisit id changes => v.editVisit id changes
  | .deleteVisit id => v.deleteVisit id
  | .editPlannedVisit id changes => v.editPlannedVisit id changes
  | .bulkAssign ids technician => v.bulkAssign ids technician
  | .generatePlan => .ok v.generatePlan.1

/-- A request that is refused rolls back. -/
def step (event : Event) : Plan :=
  match v.attempt event with
  | .ok v' => v'
  | .error _ => v

/-- A firm with no lifts yet. -/
def empty (today : Date) : Plan := ⟨today, [], [], [], [], [], 0⟩

end Plan
end Maintenance
end Shiftlush
