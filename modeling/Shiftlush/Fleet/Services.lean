import Shiftlush.Text
import Shiftlush.Transitions
import Shiftlush.Fleet.Records

namespace Shiftlush
namespace Fleet

open Calendar (Date)

/-!
# What may be done to a lift

The services of `apps.contracts`, `apps.inspections` and `apps.faults`, and the
create and edit calls of the contract and lift APIs, each on the whole firm: a
call returns the firm it leaves, or the error it is refused with.  A record a
request names is looked up first, as the views do.
-/

inductive Failure where
  | notFound
  | elevatorAlreadyContracted
  | terminationReasonRequired
  | validationError
  | endDateBeforeStartDate
  | statusNotUserSelectable
  | faultTransitionNotAllowed
  | integrityError
  deriving DecidableEq, Repr

/-! ## Contracts and their lines -/

/-- The open line of a contract. -/
def openLine (contract : Nat) (r : Nat × ContractElevator) : Bool :=
  decide (r.2.contract = contract) && r.2.isOpen

/-- The row `renew` creates. -/
def Contract.successor (contract : Contract) (id : Nat) (startDate endDate : Date)
    (copyTerms : Bool) : Contract :=
  { contract with
    status := .draft
    startDate := startDate
    endDate := endDate
    monthlyFee := if copyTerms then contract.monthlyFee else none
    vatRate := if copyTerms then contract.vatRate else none
    previousContract := some id
    terminatedAt := none
    terminationReason := ""
    notes := "" }

/-- The lines it carries over, under new keys. -/
def carried (successor : Nat) (startDate : Date) (copyTerms : Bool) (firstId : Nat)
    (lines : Rows ContractElevator) : Rows ContractElevator :=
  lines.mapIdx (fun k r => (firstId + k,
    ⟨successor, r.2.elevator, if copyTerms then r.2.unitPrice else none, startDate, none⟩))

def nextTerm (start finish : Date) : Date × Date :=
  let newStart := finish.next
  let months := (newStart.month - start.month).toNat
  if 0 < months ∧ newStart.day = start.day ∧ start.addMonths months = newStart then
    (newStart, (newStart.addMonths months).previous)
  else (newStart, newStart.addDays (finish.ordinal - start.ordinal).toNat)

/-- `ContractWriteSerializer`, of a PATCH: the fields that are given. -/
structure ContractChanges where
  customer : Option Nat
  status : Option ContractStatus
  scope : Option Scope
  startDate : Option Date
  endDate : Option Date
  pricingType : Option PricingType
  monthlyFee : Option (Option Cents)
  currency : Option String
  vatRate : Option Int
  billingPeriod : Option BillingPeriod
  autoRenew : Option Bool
  renewalNoticeDays : Option Int
  notes : Option String
  deriving DecidableEq

def ContractChanges.apply (changes : ContractChanges) (contract : Contract) : Contract :=
  { contract with
    customer := changes.customer.getD contract.customer
    status := changes.status.getD contract.status
    scope := changes.scope.getD contract.scope
    startDate := changes.startDate.getD contract.startDate
    endDate := changes.endDate.getD contract.endDate
    pricingType := changes.pricingType.getD contract.pricingType
    monthlyFee := changes.monthlyFee.getD contract.monthlyFee
    currency := changes.currency.getD contract.currency
    vatRate := changes.vatRate.or contract.vatRate
    billingPeriod := changes.billingPeriod.getD contract.billingPeriod
    autoRenew := changes.autoRenew.getD contract.autoRenew
    renewalNoticeDays := changes.renewalNoticeDays.getD contract.renewalNoticeDays
    notes := changes.notes.getD contract.notes }

/-- The same serializer on create, where what is left out has its default. -/
structure NewContract where
  customer : Nat
  status : Option ContractStatus
  scope : Scope
  startDate : Date
  endDate : Date
  pricingType : PricingType
  monthlyFee : Option Cents
  currency : Option String
  vatRate : Int
  billingPeriod : Option BillingPeriod
  autoRenew : Option Bool
  renewalNoticeDays : Option Int
  notes : Option String
  deriving DecidableEq

def NewContract.row (new : NewContract) : Contract where
  customer := new.customer
  status := new.status.getD .draft
  scope := new.scope
  startDate := new.startDate
  endDate := new.endDate
  pricingType := new.pricingType
  monthlyFee := new.monthlyFee
  currency := new.currency.getD "TRY"
  vatRate := some new.vatRate
  billingPeriod := new.billingPeriod.getD .monthly
  autoRenew := new.autoRenew.getD false
  renewalNoticeDays := new.renewalNoticeDays.getD 60
  previousContract := none
  terminatedAt := none
  terminationReason := ""
  notes := new.notes.getD ""

/-- `validate_status` and `validate` of what would be saved. -/
def checkContract (status : Option ContractStatus) (contract : Contract) : Except Failure Unit :=
  if status.any ContractStatus.isClosed then .error .statusNotUserSelectable
  else if contract.endDate ≤ contract.startDate then .error .endDateBeforeStartDate
  else .ok ()

/-- `order_by("-added_at", "-id").first()` -/
def newerLine (best : Option (Nat × ContractElevator)) (r : Nat × ContractElevator) :
    Option (Nat × ContractElevator) :=
  match best with
  | none => some r
  | some b =>
      if b.2.addedAt < r.2.addedAt ∨ b.2.addedAt = r.2.addedAt ∧ b.1 < r.1 then some r else some b

/-! ## Lifts and their inspections -/

/-- `validate_status`: `uncontracted` is assigned by the contract service. -/
def checkStatus (status : Option ElevatorStatus) : Except Failure Unit :=
  if status = some .uncontracted then .error .statusNotUserSelectable else .ok ()

/-- The order `-inspected_on, -created_at, -id`. -/
def later (a b : Nat × Inspection) : Bool :=
  decide (b.2.inspectedOn < a.2.inspectedOn) ||
    decide (a.2.inspectedOn = b.2.inspectedOn) &&
      (decide (b.2.createdAt < a.2.createdAt) || decide (a.2.createdAt = b.2.createdAt ∧ b.1 < a.1))

/-- The later of an inspection seen so far and another. -/
def laterOf (best : Option (Nat × Inspection)) (r : Nat × Inspection) : Option (Nat × Inspection) :=
  match best with
  | none => some r
  | some b => if later r b then some r else some b

/-- What `sync_elevator` makes of a lift and its latest inspection. -/
def Elevator.sync (lift : Elevator) (latest : Inspection) : Elevator where
  status :=
    if latest.label.usable = false ∧ lift.status = .active then .outOfService
    else if latest.label.usable = true ∧ lift.inspectionLabel = .red ∧ lift.status = .outOfService then
      .active
    else lift.status
  lastInspectionDate := some latest.inspectedOn
  inspectionLabel := latest.label.toInspectionLabel
  nextInspectionDate := some latest.nextInspectionDue
  inspectionBody := latest.inspectionBody
  inspectionReportNumber := latest.reportNumber

structure NewInspection where
  elevator : Nat
  inspectedOn : Date
  label : Label
  follows : Option Nat
  nextInspectionDue : Option Date
  inspectionBody : String
  reportNumber : String
  deriving DecidableEq

structure InspectionChanges where
  inspectedOn : Option Date
  label : Option Label
  nextInspectionDue : Option Date
  inspectionBody : Option String
  reportNumber : Option String
  deriving DecidableEq

def InspectionChanges.apply (changes : InspectionChanges) (inspection : Inspection) : Inspection :=
  { inspection with
    inspectedOn := changes.inspectedOn.getD inspection.inspectedOn
    label := changes.label.getD inspection.label
    nextInspectionDue := changes.nextInspectionDue.getD inspection.nextInspectionDue
    inspectionBody := changes.inspectionBody.getD inspection.inspectionBody
    reportNumber := changes.reportNumber.getD inspection.reportNumber }

/-! ## Faults -/

/-- The clock, and the local date. -/
structure Now where
  time : Nat
  today : Date
  deriving DecidableEq

structure PublicReport where
  someoneTrapped : Bool
  elevatorStopped : Bool
  deriving DecidableEq, Repr

/-- `public_priority` -/
def PublicReport.priority (report : PublicReport) : FaultPriority :=
  if report.someoneTrapped then .emergency else if report.elevatorStopped then .high else .normal

/-- `_PRIORITY_RANK` -/
def FaultPriority.rank : FaultPriority -> Nat
  | .emergency => 0
  | .high => 1
  | .normal => 2

/-- `PUBLIC_MERGE_WINDOW`, in seconds. -/
def publicMergeWindow : Nat := 1800

/-- The row a report from outside makes. -/
def PublicReport.row (report : PublicReport) (channel : FaultChannel) (elevator : Nat) (now : Now) :
    Fault where
  elevator := elevator
  channel := channel
  priority := report.priority
  status := .open
  technician := none
  reportedOn := now.today
  reportedAt := now.time
  closedOn := none
  closedAt := none
  stoppedElevator := report.elevatorStopped
  partsUsed := ""
  billable := none
  billableOverridden := false

/-- A fault a public report is merged into. -/
def mergesInto (elevator : Nat) (now : Now) (r : Nat × Fault) : Bool :=
  decide (r.2.elevator = elevator ∧ r.2.channel = .publicQr ∧
    (r.2.status = .open ∨ r.2.status = .assigned) ∧ now.time ≤ r.2.reportedAt + publicMergeWindow)

/-- `order_by("-reported_at", "-id").first()` -/
def newer (best : Option (Nat × Fault)) (r : Nat × Fault) : Option (Nat × Fault) :=
  match best with
  | none => some r
  | some b =>
      if b.2.reportedAt < r.2.reportedAt ∨ b.2.reportedAt = r.2.reportedAt ∧ b.1 < r.1 then some r
      else some b

/-! ## The firm -/

structure Firm where
  contracts : Rows Contract
  lines : Rows ContractElevator
  elevators : Rows Elevator
  inspections : Rows Inspection
  faults : Rows Fault
  nextId : Nat
  deriving DecidableEq

namespace Firm

def empty : Firm := ⟨[], [], [], [], [], 0⟩

def contract (s : Firm) (id : Nat) : Except Failure Contract :=
  match s.contracts.get? id with
  | some contract => .ok contract
  | none => .error .notFound

def fault (s : Firm) (id : Nat) : Except Failure Fault :=
  match s.faults.get? id with
  | some fault => .ok fault
  | none => .error .notFound

def setStatus (s : Firm) (elevator : Nat) (status : ElevatorStatus) : Firm :=
  { s with elevators := s.elevators.update elevator (fun lift => { lift with status := status }) }

/-! ## Contract lines -/

/-- An open line holds the lift. -/
def isHeld (s : Firm) (elevator : Nat) : Bool :=
  s.lines.any (fun r => decide (r.2.elevator = elevator) && r.2.isOpen)

def openLines (s : Firm) (contract : Nat) : Rows ContractElevator := s.lines.filter (openLine contract)

/-- Fill `removed_at` of a contract's open lines. -/
def closeLines (s : Firm) (contract : Nat) (day : Date) : Firm :=
  { s with lines := s.lines.map (fun r =>
      if openLine contract r then (r.1, { r.2 with removedAt := some day }) else r) }

/-- "Every covered elevator falls back to uncontracted." -/
def uncontract (s : Firm) (elevators : List Nat) : Firm :=
  { s with elevators := s.elevators.map (fun r =>
      if r.1 ∈ elevators then (r.1, { r.2 with status := .uncontracted }) else r) }

/-- The loop of `terminate`, `expire`, and of `renew` when nothing is carried. -/
def release (s : Firm) (contract : Nat) (day : Date) : Firm :=
  (s.closeLines contract day).uncontract ((s.openLines contract).map (·.2.elevator))

/-! ## `apps.contracts.services` -/

/-- One turn of the loop of `add_elevators`. -/
def addElevator (s : Firm) (contract : Nat) (unitPrice : Option Cents) (today : Date)
    (elevator : Nat) : Except Failure Firm :=
  match s.elevators.get? elevator with
  | none => .error .notFound
  | some lift =>
      if s.isHeld elevator then .error .elevatorAlreadyContracted
      else
        let s := { s with
          lines := s.lines.insert s.nextId ⟨contract, elevator, unitPrice, today, none⟩
          nextId := s.nextId + 1 }
        .ok (if lift.status = .uncontracted then s.setStatus elevator .active else s)

def addElevators (contract : Nat) (unitPrice : Option Cents) (today : Date) :
    List Nat -> Firm -> Except Failure Firm
  | [], s => .ok s
  | elevator :: elevators, s => do
      let s ← s.addElevator contract unitPrice today elevator
      addElevators contract unitPrice today elevators s

def removeElevator (s : Firm) (contract elevator : Nat) (today : Date) : Except Failure Firm :=
  match s.lines.find? (fun r => openLine contract r && decide (r.2.elevator = elevator)) with
  | none => .error .notFound
  | some line =>
      .ok ({ s with lines := s.lines.update line.1 (fun l => { l with removedAt := some today }) }.setStatus
        elevator .uncontracted)

def setContract (s : Firm) (id : Nat) (f : Contract -> Contract) : Firm :=
  { s with contracts := s.contracts.update id f }

def terminate (s : Firm) (id : Nat) (terminatedAt : Date) (reason : String) : Except Failure Firm := do
  let contract ← s.contract id
  if isBlank reason then .error .terminationReasonRequired
  else if contract.status.isClosed then .error .validationError
  else
    .ok ((s.release id terminatedAt).setContract id (fun contract =>
      { contract with status := .terminated, terminatedAt := some terminatedAt
                      terminationReason := reason, autoRenew := false }))

/-- `renew`, with the key of the successor. -/
def renew (s : Firm) (id : Nat) (startDate endDate : Date) (carryElevators copyTerms : Bool) :
    Except Failure (Firm × Nat) := do
  let contract ← s.contract id
  if contract.status.isClosed then .error .validationError
  else if endDate ≤ startDate then .error .endDateBeforeStartDate
  else
    let successor := s.nextId
    let held := s.openLines id
    let s := { s with
      contracts := s.contracts.insert successor (contract.successor id startDate endDate copyTerms)
      nextId := s.nextId + 1 }
    let s :=
      if carryElevators then
        let closed := s.closeLines id startDate
        { closed with
          lines := closed.lines ++ carried successor startDate copyTerms s.nextId held
          nextId := s.nextId + held.length }
      else s.release id startDate
    .ok (s.setContract id (fun contract => { contract with status := .renewed }), successor)

/-- `expire`, one turn of the nightly task. -/
def expire (s : Firm) (id : Nat) (today : Date) : Except Failure Firm := do
  let contract ← s.contract id
  if contract.status ≠ .active ∨ today ≤ contract.endDate then .ok s
  else if contract.autoRenew then
    let term := nextTerm contract.startDate contract.endDate
    let (s, successor) ← s.renew id term.1 term.2 true true
    if contract.vatRate.isNone then .ok s
    else .ok (s.setContract successor (fun contract => { contract with status := .active }))
  else
    .ok ((s.release id contract.endDate.next).setContract id
      (fun contract => { contract with status := .expired }))

/-! ## The contract API -/

def createContract (s : Firm) (new : NewContract) : Except Failure Firm := do
  checkContract new.status new.row
  .ok { s with contracts := s.contracts.insert s.nextId new.row, nextId := s.nextId + 1 }

def editContract (s : Firm) (id : Nat) (changes : ContractChanges) : Except Failure Firm := do
  let contract ← s.contract id
  checkContract changes.status (changes.apply contract)
  .ok (s.setContract id changes.apply)

/-! ## The lift API -/

def createElevator (s : Firm) (status : Option ElevatorStatus) : Except Failure Firm := do
  checkStatus status
  .ok { s with
    elevators := s.elevators.insert s.nextId ⟨status.getD .uncontracted, none, .none, none, "", ""⟩
    nextId := s.nextId + 1 }

def editElevator (s : Firm) (id : Nat) (status : Option ElevatorStatus) : Except Failure Firm := do
  if (s.elevators.get? id).isNone then .error .notFound
  else
    checkStatus status
    .ok { s with elevators := s.elevators.update id (fun lift =>
      { lift with status := status.getD lift.status }) }

/-! ## `apps.inspections.services` -/

/-- A lift's latest inspection. -/
def latest (s : Firm) (elevator : Nat) : Option Inspection :=
  ((s.inspections.filter (fun r => decide (r.2.elevator = elevator))).foldl laterOf none).map Prod.snd

def syncElevator (s : Firm) (elevator : Nat) : Firm :=
  match s.latest elevator with
  | none => s
  | some latest => { s with elevators := s.elevators.update elevator (fun lift => lift.sync latest) }

def defaultNextInspectionDue (s : Firm) (inspectedOn : Date) (follows : Option Nat) : Date :=
  match follows.bind s.inspections.get? with
  | some origin => origin.nextInspectionDue
  | none => inspectedOn.addMonths 12

/-- `record` -/
def recordInspection (s : Firm) (new : NewInspection) (now : Nat) : Except Failure Firm :=
  if (s.elevators.get? new.elevator).isNone then .error .notFound
  else
    let inspection : Inspection := {
      elevator := new.elevator
      inspectedOn := new.inspectedOn
      createdAt := now
      label := new.label
      nextInspectionDue :=
        new.nextInspectionDue.getD (s.defaultNextInspectionDue new.inspectedOn new.follows)
      inspectionBody := new.inspectionBody
      reportNumber := new.reportNumber }
    .ok ({ s with
      inspections := s.inspections.insert s.nextId inspection
      nextId := s.nextId + 1 }.syncElevator new.elevator)

/-- `edit` of an inspection. -/
def editInspection (s : Firm) (id : Nat) (changes : InspectionChanges) : Except Failure Firm :=
  match s.inspections.get? id with
  | none => .error .notFound
  | some inspection =>
      .ok ({ s with inspections := s.inspections.update id changes.apply }.syncElevator
        inspection.elevator)

/-! ## `apps.faults.services` -/

/-- `_stop`: "Only an active lift is put out of service." -/
def stop (s : Firm) (elevator : Nat) : Firm :=
  { s with elevators := s.elevators.update elevator (fun lift =>
      if lift.status = .active then { lift with status := .outOfService } else lift) }

/-- A new fault, which stops the lift if that is what is reported. -/
def insertFault (s : Firm) (fault : Fault) : Firm :=
  let s := { s with faults := s.faults.insert s.nextId fault, nextId := s.nextId + 1 }
  if fault.stoppedElevator then s.stop fault.elevator else s

def reportByStaff (s : Firm) (elevator : Nat) (priority : FaultPriority) (technician : Option Nat)
    (stoppedElevator someoneTrapped : Bool) (now : Now) : Except Failure Firm :=
  if (s.elevators.get? elevator).isNone then .error .notFound
  else
    .ok (s.insertFault {
      elevator := elevator
      channel := .staff
      priority := if someoneTrapped then .emergency else priority
      status := if technician.isSome then .assigned else .open
      technician := technician
      reportedOn := now.today
      reportedAt := now.time
      closedOn := none
      closedAt := none
      stoppedElevator := stoppedElevator
      partsUsed := ""
      billable := none
      billableOverridden := false })

def merge (s : Firm) (r : Nat × Fault) (report : PublicReport) : Firm :=
  let s' := { s with faults := s.faults.update r.1 (fun fault =>
    { fault with
      priority := if report.priority.rank < fault.priority.rank then report.priority else fault.priority
      stoppedElevator := fault.stoppedElevator || report.elevatorStopped }) }
  if report.elevatorStopped && !r.2.stoppedElevator then s'.stop r.2.elevator else s'

def reportPublic (s : Firm) (elevator : Nat) (report : PublicReport) (now : Now) :
    Except Failure Firm :=
  if (s.elevators.get? elevator).isNone then .error .notFound
  else
    match (s.faults.filter (mergesInto elevator now)).foldl newer none with
    | some existing => .ok (s.merge existing report)
    | none => .ok (s.insertFault (report.row .publicQr elevator now))

def reportByPortal (s : Firm) (elevator : Nat) (report : PublicReport) (now : Now) :
    Except Failure Firm :=
  if (s.elevators.get? elevator).isNone then .error .notFound
  else .ok (s.insertFault (report.row .customerPortal elevator now))

def setFault (s : Firm) (id : Nat) (f : Fault -> Fault) : Firm :=
  { s with faults := s.faults.update id f }

def assign (s : Firm) (id technician : Nat) : Except Failure Firm := do
  let fault ← s.fault id
  if fault.status ≠ .open ∧ fault.status ≠ .assigned then .error .faultTransitionNotAllowed
  else .ok (s.setFault id (fun fault => { fault with technician := some technician, status := .assigned }))

def arrive (s : Firm) (id : Nat) : Except Failure Firm := do
  let fault ← s.fault id
  if fault.status ≠ .assigned then .error .faultTransitionNotAllowed
  else .ok (s.setFault id (fun fault => { fault with status := .onSite }))

/-- The line covered the lift on the day, under a contract that did. -/
def covers (s : Firm) (elevator : Nat) (day : Date) (r : Nat × ContractElevator) : Bool :=
  decide (r.2.elevator = elevator ∧ r.2.addedAt ≤ day) && r.2.removedAt.all (fun last => decide (day ≤ last)) &&
    (s.contracts.get? r.2.contract).any (fun contract =>
      decide (contract.startDate ≤ day ∧ day ≤ contract.endDate ∧ contract.status ≠ .draft))

def coveringScope (s : Firm) (elevator : Nat) (day : Date) : Option Scope := do
  let line ← (s.lines.filter (s.covers elevator day)).foldl newerLine none
  let contract ← s.contracts.get? line.2.contract
  some contract.scope

/-- `derive_billable`, with the parts `resolve` has just been given. -/
def deriveBillable (s : Firm) (fault : Fault) (partsUsed : String) : Bool :=
  match s.coveringScope fault.elevator fault.reportedOn with
  | some .fullCoverage => false
  | some .maintenanceAndRepair => !isBlank partsUsed
  | _ => true

def resolve (s : Firm) (id : Nat) (partsUsed : String) (restoreService : Bool) :
    Except Failure Firm := do
  let fault ← s.fault id
  if fault.status ≠ .onSite then .error .faultTransitionNotAllowed
  else
    let billable := if fault.billableOverridden then fault.billable
      else some (s.deriveBillable fault partsUsed)
    let s := s.setFault id (fun fault =>
      { fault with status := .resolved, partsUsed := partsUsed, billable := billable })
    .ok { s with elevators := s.elevators.update fault.elevator (fun lift =>
      if restoreService && decide (lift.status = .outOfService) then { lift with status := .active }
      else lift) }

def close (s : Firm) (id : Nat) (now : Now) : Except Failure Firm := do
  let fault ← s.fault id
  if fault.status ≠ .resolved then .error .faultTransitionNotAllowed
  else .ok (s.setFault id (fun fault => 
      { fault with status := .closed, closedOn := some now.today, closedAt := some now.time }))

def cancel (s : Firm) (id : Nat) : Except Failure Firm := do
  let fault ← s.fault id
  if fault.status.isCancellable = false then .error .faultTransitionNotAllowed
  else .ok (s.setFault id (fun fault => { fault with status := .cancelled }))

/-- `edit` of a fault: "stating `billable` marks it overridden". -/
def editFault (s : Firm) (id : Nat) (priority : Option FaultPriority) (billable : Option Bool) :
    Except Failure Firm := do
  let _ ← s.fault id
  .ok (s.setFault id (fun fault =>
    { fault with
      priority := priority.getD fault.priority
      billable := billable.or fault.billable
      billableOverridden := fault.billableOverridden || billable.isSome }))

end Firm

/-! ## Requests -/

inductive Event where
  | createContract (new : NewContract)
  | editContract (id : Nat) (changes : ContractChanges)
  | addElevators (contract : Nat) (elevators : List Nat) (unitPrice : Option Cents) (today : Date)
  | removeElevator (contract elevator : Nat) (today : Date)
  | terminate (contract : Nat) (terminatedAt : Date) (reason : String)
  | renew (contract : Nat) (startDate endDate : Date) (carryElevators copyTerms : Bool)
  /-- The nightly task comes to the contract. -/
  | expire (contract : Nat) (today : Date)
  | createElevator (status : Option ElevatorStatus)
  | editElevator (id : Nat) (status : Option ElevatorStatus)
  | recordInspection (new : NewInspection) (now : Nat)
  | editInspection (id : Nat) (changes : InspectionChanges)
  | reportByStaff (elevator : Nat) (priority : FaultPriority) (technician : Option Nat)
      (stoppedElevator someoneTrapped : Bool) (now : Now)
  | reportPublic (elevator : Nat) (report : PublicReport) (now : Now)
  | reportByPortal (elevator : Nat) (report : PublicReport) (now : Now)
  | assign (fault technician : Nat)
  | arrive (fault : Nat)
  | resolve (fault : Nat) (partsUsed : String) (restoreService : Bool)
  | close (fault : Nat) (now : Now)
  | cancel (fault : Nat)
  | editFault (fault : Nat) (priority : Option FaultPriority) (billable : Option Bool)
  deriving DecidableEq

namespace Firm

def attempt (s : Firm) : Event -> Except Failure Firm
  | .createContract new => s.createContract new
  | .editContract id changes => s.editContract id changes
  | .addElevators contract elevators unitPrice today => do
      let _ ← s.contract contract
      addElevators contract unitPrice today elevators s
  | .removeElevator contract elevator today => do
      let _ ← s.contract contract
      s.removeElevator contract elevator today
  | .terminate contract terminatedAt reason => s.terminate contract terminatedAt reason
  | .renew contract startDate endDate carryElevators copyTerms => do
      let (s, _) ← s.renew contract startDate endDate carryElevators copyTerms
      .ok s
  | .expire contract today => s.expire contract today
  | .createElevator status => s.createElevator status
  | .editElevator id status => s.editElevator id status
  | .recordInspection new now => s.recordInspection new now
  | .editInspection id changes => s.editInspection id changes
  | .reportByStaff elevator priority technician stoppedElevator someoneTrapped now =>
      s.reportByStaff elevator priority technician stoppedElevator someoneTrapped now
  | .reportPublic elevator report now => s.reportPublic elevator report now
  | .reportByPortal elevator report now => s.reportByPortal elevator report now
  | .assign fault technician => s.assign fault technician
  | .arrive fault => s.arrive fault
  | .resolve fault partsUsed restoreService => s.resolve fault partsUsed restoreService
  | .close fault now => s.close fault now
  | .cancel fault => s.cancel fault
  | .editFault fault priority billable => s.editFault fault priority billable

/-- A refused request leaves the firm as it is. -/
def step (s : Firm) (event : Event) : Firm :=
  match s.attempt event with
  | .ok s' => s'
  | .error _ => s

end Firm
end Fleet
end Shiftlush
