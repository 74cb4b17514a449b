import Shiftlush.Faults.Records
import Shiftlush.Fleet.Services
import Shiftlush.Sessions.Services
import Shiftlush.Transactions.Serial

namespace Shiftlush
namespace Faults

open Calendar (Date)
open Fleet (FaultStatus FaultChannel FaultPriority Scope publicMergeWindow)
open Sessions (Role)
open Transactions

/-!
# The life of a fault, statement by statement

`apps.faults.services` under `READ COMMITTED`.  Every transition locks the fault
it moves, and a public report the lift and then the fault it is merged into.
`timezone.now()` reads a clock that only goes on.  The status of a lift, which a
report may change on the way, and the reference of a fault are left out.
-/

/-! ## The firm around the faults -/

structure Staff where
  role : Role
  isActive : Bool
  isDeleted : Bool
  deriving DecidableEq

/-- A contract line that is not deleted, of a contract that is not a draft. -/
structure CoverLine where
  elevator : Nat
  addedAt : Date
  removedAt : Option Date
  startDate : Date
  endDate : Date
  scope : Scope
  deriving DecidableEq

/-- What a notification is about, besides its fault: the rest of `dedupe_key`. -/
inductive NoticeKey where
  | reported
  | emergency
  | assigned (assignedAt : Nat)
  | resolved
  deriving DecidableEq

/-- No two share all three: `uq_notification_dedupe_per_recipient`. -/
structure Notice where
  recipient : Nat
  fault : Nat
  key : NoticeKey
  deriving DecidableEq

structure Board where
  clock : Nat
  users : Rows Staff
  /-- The customer of a lift. -/
  customers : Rows Nat
  /-- The customer assignments that are not deleted: customer and user. -/
  assignments : List (Nat × Nat)
  /-- In the order `-added_at, -id`. -/
  cover : List CoverLine
  faults : Rows Fault
  notices : List Notice

inductive Failure where
  | notFound
  | faultTransitionNotAllowed
  deriving DecidableEq, Repr

/-- `_OFFICE` -/
def isOffice : Role -> Bool
  | .owner => true
  | .admin => true
  | .operations => true
  | _ => false

namespace Board

variable (v : Board)

def office : List Nat := (v.users.filter (fun r => isOffice r.2.role && r.2.isActive)).map Prod.fst

def customerTechnicians (fault : Fault) : List Nat :=
  (v.users.filter (fun r => decide (r.2.role = .technician) && r.2.isActive &&
    v.assignments.any (fun a => decide (v.customers.get? fault.elevator = some a.1 ∧ a.2 = r.1)))).map Prod.fst

/-- Those whom `notify` does not skip. -/
def isReachable (user : Nat) : Bool := (v.users.get? user).any (fun u => u.isActive && !u.isDeleted)

/-- The people of `_announce_report`. -/
def reportRecipients (fault : Fault) : List Nat :=
  ((v.office ++ v.customerTechnicians fault ++
      (if fault.priority = .emergency then fault.technician.toList else [])).dedup.filter (fun user =>
    decide (fault.reportedBy ≠ some user))).filter v.isReachable

/-- `_create_once` -/
def tell (fault : Nat) (key : NoticeKey) (user : Nat) : Board :=
  if ⟨user, fault, key⟩ ∈ v.notices then v else { v with notices := v.notices ++ [⟨user, fault, key⟩] }

/-- `notify`, of people it does not skip. -/
def notify (fault : Nat) (key : NoticeKey) (people : List Nat) : Board :=
  people.foldl (fun v user => v.tell fault key user) v

def coveringScope (elevator : Nat) (day : Date) : Option Scope :=
  (v.cover.find? (fun line => decide (line.elevator = elevator ∧ line.addedAt ≤ day ∧ line.startDate ≤ day ∧
    day ≤ line.endDate) && (line.removedAt.isNone || line.removedAt.any (fun removed => decide (day ≤ removed))))).map
      CoverLine.scope

/-- `derive_billable`, with the parts `resolve` has just been given. -/
def deriveBillable (fault : Fault) (partsUsed : String) : Bool :=
  match v.coveringScope fault.elevator (localDate fault.reportedAt) with
  | some .fullCoverage => false
  | some .maintenanceAndRepair => !isBlank partsUsed
  | _ => true

def updateFault (id : Nat) (f : Fault -> Fault) : Board := { v with faults := v.faults.update id f }

def insertFault (id : Nat) (fault : Fault) : Board := { v with faults := v.faults.insert id fault }

end Board

/-! ## Rows and notes -/

inductive Row where
  | elevator (id : Nat)
  | fault (id : Nat)
  deriving DecidableEq, Repr

inductive Note where
  /-- The time that was read. -/
  | now (moment : Nat)
  /-- The time that was read of a fault that is locked. -/
  | stamp (fault moment : Nat)
  /-- The faults that a public report of a lift found it may be merged into. -/
  | candidates (elevator moment : Nat) (faults : List Nat)
  /-- The people a fault is announced to. -/
  | people (fault : Nat) (users : List Nat)
  deriving DecidableEq

abbrev FaultProg (α : Type) := Prog Board Row Note Failure α

/-! ## Announcing -/

def announceReport (id : Nat) (fault : Fault) : FaultProg Unit := do
  let people ← peekLogged (fun v => v.reportRecipients fault) (fun people => [.people id people])
  write (fun v => v.notify id (if fault.priority = .emergency then .emergency else .reported) people)

def announceAssignment (id : Nat) (fault : Fault) (technician assignedAt : Nat) : FaultProg Unit :=
  if fault.reportedBy = some technician ∧ fault.channel = .staff then return ()
  else do
    let people ← peek (fun v => [technician].filter v.isReachable)
    write (fun v => v.notify id (.assigned assignedAt) people)

def announceResolution (id : Nat) : FaultProg Unit := do
  let people ← peek (fun v => v.office.filter v.isReachable)
  write (fun v => v.notify id .resolved people)

/-! ## Reporting -/

structure StaffReport where
  elevator : Nat
  description : String
  priority : FaultPriority
  reportedBy : Nat
  technician : Option Nat
  stoppedElevator : Bool
  someoneTrapped : Bool
  deriving DecidableEq

def StaffReport.row (new : StaffReport) (now : Nat) : Fault where
  elevator := new.elevator
  reference := ""
  channel := .staff
  reportedBy := some new.reportedBy
  reporterName := ""
  reporterPhone := ""
  description := new.description
  additionalReports := []
  priority := if new.someoneTrapped then .emergency else new.priority
  status := if new.technician.isSome then .assigned else .open
  technician := new.technician
  reportedAt := now
  assignedAt := if new.technician.isSome then some now else none
  onSiteAt := none
  resolvedAt := none
  closedAt := none
  cancelledAt := none
  cancelReason := ""
  resolutionNotes := ""
  partsUsed := ""
  billable := none
  billableOverridden := false
  stoppedElevator := new.stoppedElevator

def reportByStaff (new : StaffReport) : FaultProg Unit := do
  let now ← peekLogged Board.clock (fun now => [.now now])
  let id ← fresh
  write (fun v => v.insertFault id (new.row now))
  announceReport id (new.row now)
  match new.technician with
  | none => return ()
  | some technician => announceAssignment id (new.row now) technician now

structure PublicReport extends Fleet.PublicReport where
  description : String
  reporterName : String
  reporterPhone : String
  deriving DecidableEq

/-- The row a report from outside makes. -/
def PublicReport.row (report : PublicReport) (channel : FaultChannel) (elevator now : Nat) : Fault where
  elevator := elevator
  reference := ""
  channel := channel
  reportedBy := none
  reporterName := if channel = .publicQr then report.reporterName else ""
  reporterPhone := if channel = .publicQr then report.reporterPhone else ""
  description := report.description
  additionalReports := []
  priority := report.priority
  status := .open
  technician := none
  reportedAt := now
  assignedAt := none
  onSiteAt := none
  resolvedAt := none
  closedAt := none
  cancelledAt := none
  cancelReason := ""
  resolutionNotes := ""
  partsUsed := ""
  billable := none
  billableOverridden := false
  stoppedElevator := report.elevatorStopped

def reportByPortal (elevator : Nat) (report : PublicReport) : FaultProg Unit := do
  let now ← peekLogged Board.clock (fun now => [.now now])
  let id ← fresh
  write (fun v => v.insertFault id (report.row .customerPortal elevator now))
  announceReport id (report.row .customerPortal elevator now)

/-- A public fault that may still be merged into. -/
def Fault.isWaiting (fault : Fault) : Bool := decide (fault.status = .open ∨ fault.status = .assigned)

/-- The filter on the faults a public report is merged into. -/
def mergesInto (elevator now : Nat) (fault : Fault) : Bool :=
  decide (fault.elevator = elevator ∧ fault.channel = .publicQr ∧ now ≤ fault.reportedAt + publicMergeWindow) &&
    fault.isWaiting

/-- `order_by("-reported_at", "-id")` -/
def newest (a b : Nat × Fault) : Bool :=
  decide (b.2.reportedAt < a.2.reportedAt) || decide (a.2.reportedAt = b.2.reportedAt ∧ b.1 ≤ a.1)

/-- The rows that the `SELECT` finds, in its order. -/
def Board.candidates (v : Board) (elevator now : Nat) : List Nat :=
  ((v.faults.filter (fun r => mergesInto elevator now r.2)).mergeSort newest).map Prod.fst

/-- `FOR UPDATE`: each row found is waited for and tested again, until one passes.
No fault is ever deleted. -/
def firstToMerge (elevator now : Nat) : List Nat -> FaultProg (Option (Nat × Fault))
  | [] => return none
  | id :: ids => do
      lock .update (.fault id)
      let fault ← fetch (fun v => v.faults.get? id) .notFound
      if mergesInto elevator now fault then return some (id, fault) else firstToMerge elevator now ids

/-- The columns that `_merge` saves. -/
def PublicReport.mergeInto (report : PublicReport) (now : Nat) (fault : Fault) : Fault :=
  { fault with
    additionalReports := fault.additionalReports ++ [{
      reportedAt := now
      description := report.description
      someoneTrapped := report.someoneTrapped
      elevatorStopped := report.elevatorStopped }]
    reporterName := if fault.reporterName = "" ∧ fault.reporterPhone = "" then report.reporterName else fault.reporterName
    reporterPhone := if fault.reporterName = "" ∧ fault.reporterPhone = "" then report.reporterPhone
      else fault.reporterPhone
    priority := if report.priority.rank < fault.priority.rank then report.priority else fault.priority
    stoppedElevator := fault.stoppedElevator || report.elevatorStopped }

def merge (id : Nat) (fault : Fault) (report : PublicReport) (now : Nat) : FaultProg Unit := do
  write (fun v => v.updateFault id (report.mergeInto now))
  if report.priority.rank < fault.priority.rank ∧ report.priority = .emergency then
    announceReport id (report.mergeInto now fault)
  else return ()

def reportPublic (elevator : Nat) (report : PublicReport) : FaultProg Unit := do
  lock .update (.elevator elevator)
  let now ← peekLogged Board.clock (fun now => [.now now])
  let candidates ← peekLogged (fun v => v.candidates elevator now) (fun ids => [.candidates elevator now ids])
  let existing ← firstToMerge elevator now candidates
  match existing with
  | some (id, fault) => merge id fault report now
  | none => do
      let id ← fresh
      write (fun v => v.insertFault id (report.row .publicQr elevator now))
      announceReport id (report.row .publicQr elevator now)

/-! ## Transitions -/

def locked (id : Nat) : FaultProg Fault := do
  lock .update (.fault id)
  fetch (fun v => v.faults.get? id) .notFound

/-- `timezone.now()` while a fault is locked. -/
def now (id : Nat) : FaultProg Nat := peekLogged Board.clock (fun moment => [.stamp id moment])

def assign (id technician : Nat) : FaultProg Unit := do
  let fault ← locked id
  require (decide (fault.status = .open ∨ fault.status = .assigned)) .faultTransitionNotAllowed
  if fault.status = .assigned ∧ fault.technician = some technician then return ()
  else do
    let moment ← now id
    write (fun v => v.updateFault id (fun fault =>
      { fault with technician := some technician, status := .assigned, assignedAt := some moment }))
    announceAssignment id fault technician moment

def arrive (id : Nat) : FaultProg Unit := do
  let fault ← locked id
  require (decide (fault.status = .assigned)) .faultTransitionNotAllowed
  let moment ← now id
  write (fun v => v.updateFault id (fun fault => { fault with status := .onSite, onSiteAt := some moment }))

def resolve (id : Nat) (resolutionNotes partsUsed : String) : FaultProg Unit := do
  let fault ← locked id
  require (decide (fault.status = .onSite)) .faultTransitionNotAllowed
  let moment ← now id
  let billable ← peek (fun v => v.deriveBillable fault partsUsed)
  write (fun v => v.updateFault id (fun fault =>
    { fault with
      status := .resolved
      resolvedAt := some moment
      resolutionNotes := resolutionNotes
      partsUsed := partsUsed
      billable := if fault.billableOverridden then fault.billable else some billable }))
  announceResolution id

def close (id : Nat) : FaultProg Unit := do
  let fault ← locked id
  require (decide (fault.status = .resolved)) .faultTransitionNotAllowed
  let moment ← now id
  write (fun v => v.updateFault id (fun fault => { fault with status := .closed, closedAt := some moment }))

def cancel (id : Nat) (reason : String) : FaultProg Unit := do
  let fault ← locked id
  require fault.status.isCancellable .faultTransitionNotAllowed
  let moment ← now id
  write (fun v => v.updateFault id (fun fault =>
    { fault with status := .cancelled, cancelledAt := some moment, cancelReason := reason }))

structure FaultChanges where
  priority : Option FaultPriority
  description : Option String
  billable : Option Bool
  deriving DecidableEq

def FaultChanges.apply (changes : FaultChanges) (fault : Fault) : Fault :=
  { fault with
    priority := changes.priority.getD fault.priority
    description := changes.description.getD fault.description
    billable := if changes.billable.isSome then changes.billable else fault.billable
    billableOverridden := fault.billableOverridden || changes.billable.isSome }

def edit (id : Nat) (changes : FaultChanges) : FaultProg Unit := do
  let fault ← locked id
  write (fun v => v.updateFault id changes.apply)
  if (changes.apply fault).priority = .emergency ∧ fault.priority ≠ .emergency then
    announceReport id (changes.apply fault)
  else return ()

/-! ## Requests -/

inductive Request where
  /-- Time passes. -/
  | tick (seconds : Nat)
  /-- People and contracts change, elsewhere. -/
  | people (users : Rows Staff) (customers : Rows Nat) (assignments : List (Nat × Nat))
  | cover (lines : List CoverLine)
  | reportByStaff (new : StaffReport)
  | reportByPortal (elevator : Nat) (report : PublicReport)
  | reportPublic (elevator : Nat) (report : PublicReport)
  | assign (fault technician : Nat)
  | arrive (fault : Nat)
  | resolve (fault : Nat) (resolutionNotes partsUsed : String)
  | close (fault : Nat)
  | cancel (fault : Nat) (reason : String)
  | edit (fault : Nat) (changes : FaultChanges)

def serve : Request -> FaultProg Unit
  | .tick seconds => write (fun v => { v with clock := v.clock + seconds })
  | .people users customers assignments => write (fun v =>
      { v with users := users, customers := customers, assignments := assignments })
  | .cover lines => write (fun v => { v with cover := lines })
  | .reportByStaff new => reportByStaff new
  | .reportByPortal elevator report => reportByPortal elevator report
  | .reportPublic elevator report => reportPublic elevator report
  | .assign fault technician => assign fault technician
  | .arrive fault => arrive fault
  | .resolve fault resolutionNotes partsUsed => resolve fault resolutionNotes partsUsed
  | .close fault => close fault
  | .cancel fault reason => cancel fault reason
  | .edit fault changes => edit fault changes

/-- A firm nobody has reported a fault to. -/
def Board.empty (clock : Nat) : Board := ⟨clock, [], [], [], [], [], []⟩

abbrev Desk := Machine Board Row Note Failure Request Unit

end Faults
end Shiftlush
