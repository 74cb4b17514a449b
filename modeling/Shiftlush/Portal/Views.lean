import Shiftlush.Attachments.Records
import Shiftlush.Faults.Services
import Shiftlush.Inspections.Current
import Shiftlush.Lists
import Shiftlush.Maintenance.Signatures

namespace Shiftlush
namespace Portal
namespace Views

open Attachments (Attachment AttachmentCategory ObjectType)
open Calendar (Date)
open Fleet (ElevatorStatus FaultChannel FaultPriority FaultStatus InspectionLabel Label)
open Inspections (InspectionKind NonConformityStatus newestFirst)
open Shiftlush.Lists (Page Params Table View)
open Maintenance (VisitStatus)
open Maintenance.Signatures (ChecklistItem ChecklistResult Item Record SignatureState SignerRole signatureState)

/-!
# What a customer's contact reads

`apps.portal.viewsets` and the reading half of `apps.portal.api.v1.views`: one firm's tables and
everybody else's, the query of each endpoint with the joins it goes through, and what its
serializer shows of a row.  Which account a request is of has been decided before.
-/

/-! ## Rows -/

/-- `CompanyOwnedModel` -/
class CompanyOwned (ρ : Type) where
  company : ρ -> Nat
  isDeleted : ρ -> Bool

structure Building where
  company : Nat
  customer : Nat
  name : String
  isDeleted : Bool
  deriving DecidableEq

structure Elevator where
  company : Nat
  building : Nat
  name : String
  status : ElevatorStatus
  lastMaintenanceDate : Option Date
  nextMaintenanceDate : Option Date
  inspectionLabel : InspectionLabel
  nextInspectionDate : Option Date
  isDeleted : Bool
  deriving DecidableEq

structure MaintenanceVisit where
  company : Nat
  record : Record
  deriving DecidableEq

structure VisitItem where
  company : Nat
  item : Item
  deriving DecidableEq

structure Inspection where
  company : Nat
  inspection : Fleet.Inspection
  detail : Inspections.Detail
  isDeleted : Bool
  deriving DecidableEq

structure NonConformity where
  company : Nat
  inspection : Nat
  description : String
  severity : Label
  status : NonConformityStatus
  fixedOn : Option Date
  createdAt : Nat
  isDeleted : Bool
  deriving DecidableEq

structure Fault where
  company : Nat
  fault : Faults.Fault
  reportedByPortalAccount : Option Nat
  isDeleted : Bool
  deriving DecidableEq

structure CustomerReport where
  company : Nat
  customer : Nat
  period : Int
  file : Option Nat
  generatedAt : Option Nat
  summary : String
  isDeleted : Bool
  deriving DecidableEq

structure StoredFile where
  attachment : Attachment
  createdAt : Nat
  deriving DecidableEq

instance : CompanyOwned Elevator := ⟨Elevator.company, Elevator.isDeleted⟩
instance : CompanyOwned MaintenanceVisit := ⟨MaintenanceVisit.company, fun row => row.record.isDeleted⟩
instance : CompanyOwned VisitItem := ⟨VisitItem.company, fun row => row.item.isDeleted⟩
instance : CompanyOwned Inspection := ⟨Inspection.company, Inspection.isDeleted⟩
instance : CompanyOwned NonConformity := ⟨NonConformity.company, NonConformity.isDeleted⟩
instance : CompanyOwned Fault := ⟨Fault.company, Fault.isDeleted⟩
instance : CompanyOwned CustomerReport := ⟨CustomerReport.company, CustomerReport.isDeleted⟩
instance : CompanyOwned StoredFile := ⟨fun row => row.attachment.company, fun row => row.attachment.isDeleted⟩

@[ext]
structure Database where
  buildings : Rows Building
  elevators : Rows Elevator
  visits : Rows MaintenanceVisit
  items : Rows VisitItem
  inspections : Rows Inspection
  nonConformities : Rows NonConformity
  faults : Rows Fault
  reports : Rows CustomerReport
  files : Rows StoredFile
  /-- `User.first_name` -/
  firstNames : Rows String

/-- A signed-in `PortalAccount`. -/
structure Account where
  id : Nat
  company : Nat
  customer : Nat
  deriving DecidableEq

/-! ## Queries -/

section Queries

variable {ρ : Type} [CompanyOwned ρ]

/-- `TenantManager.get_queryset`, in the account's firm. -/
def objects (company : Nat) (rows : Rows ρ) : Rows ρ :=
  rows.filter (fun r => decide (CompanyOwned.company r.2 = company) && !CompanyOwned.isDeleted r.2)

/-- `PortalViewSet.get_queryset`, where the path of a row leads to a customer.  A join looks at no
other column of the rows it goes through. -/
def getQueryset (account : Account) (path : ρ -> Option Nat) (rows : Rows ρ) : Rows ρ :=
  (objects account.company rows).filter (fun r => decide (path r.2 = some account.customer))

end Queries

variable (db : Database)

def customerOfBuilding (building : Nat) : Option Nat := (db.buildings.get? building).map Building.customer

/-- `building__customer_id` -/
def customerOfElevator (elevator : Nat) : Option Nat :=
  (db.elevators.get? elevator).bind (fun row => customerOfBuilding db row.building)

def MaintenanceVisit.elevator (row : MaintenanceVisit) : Nat := row.record.form.visit.elevator

def elevatorName (elevator : Nat) : Option String := (db.elevators.get? elevator).map Elevator.name

def buildingName (building : Nat) : Option String := (db.buildings.get? building).map Building.name

/-! ## Serializers -/

/-- `PortalFileSerializer` -/
structure PortalFile where
  id : Nat
  originalFilename : String
  mimeType : String
  category : AttachmentCategory
  deriving DecidableEq

structure PortalElevator where
  id : Nat
  name : String
  building : Nat
  buildingName : Option String
  status : ElevatorStatus
  lastMaintenanceDate : Option Date
  nextMaintenanceDate : Option Date
  inspectionLabel : InspectionLabel
  nextInspectionDate : Option Date
  correctionDeadline : Option Date
  correctionDaysLeft : Option Int
  openNonconformities : Nat
  deriving DecidableEq

structure PortalVisit where
  id : Nat
  elevator : Nat
  elevatorName : Option String
  visitDate : Date
  status : VisitStatus
  technicianFirstName : Option String
  partsReplaced : String
  items : List (ChecklistItem × ChecklistResult)
  photos : List PortalFile
  signatureState : SignatureState
  signerName : String
  signerRole : Option SignerRole
  signedAt : Option Int
  amendedAfterSignature : Bool
  signature : Option PortalFile
  deriving DecidableEq

structure PortalNonConformity where
  id : Nat
  description : String
  severity : Label
  status : NonConformityStatus
  fixedOn : Option Date
  deriving DecidableEq

structure PortalInspection where
  id : Nat
  elevator : Nat
  elevatorName : Option String
  kind : InspectionKind
  inspectedOn : Date
  inspectionBody : String
  reportNumber : String
  label : Label
  nextInspectionDue : Date
  report : Option Nat
  nonconformities : List PortalNonConformity
  deriving DecidableEq

structure PortalFault where
  id : Nat
  reference : String
  elevator : Nat
  elevatorName : Option String
  buildingName : Option String
  channel : FaultChannel
  status : FaultStatus
  priority : FaultPriority
  description : String
  reportedAt : Nat
  assignedAt : Option Nat
  onSiteAt : Option Nat
  resolvedAt : Option Nat
  closedAt : Option Nat
  cancelledAt : Option Nat
  technicianFirstName : Option String
  resolutionNotes : String
  reportedByMe : Bool
  deriving DecidableEq

/-- `PortalReportSerializer` -/
structure PortalReport where
  id : Nat
  period : Int
  file : Option Nat
  generatedAt : Option Nat
  summary : String
  deriving DecidableEq

/-- `order_by("created_at", "id")` -/
def oldestFirst {ρ : Type} (createdAt : ρ -> Nat) (rows : Rows ρ) : Rows ρ :=
  (Comparator.inTurn [Comparator.by_ (fun r : Nat × ρ => createdAt r.2), Comparator.by_ Prod.fst]).sort rows

/-- The current inspection of `with_open_correction`. -/
def latestInspection (company elevator : Nat) : Option (Nat × Inspection) :=
  let rows : Rows Inspection :=
    (objects company db.inspections).filter (fun r => decide (r.2.inspection.elevator = elevator))
  ((List.insertionSort newestFirst (rows.map (fun r => (r.1, r.2.inspection)))).head?).bind (fun latest =>
    (rows.get? latest.1).map (fun row => (latest.1, row)))

/-- `open_correction` of an annotated lift. -/
def openCorrection (company elevator : Nat) : Option Date × Nat :=
  match latestInspection db company elevator with
  | none => (none, 0)
  | some latest =>
      let open_ := (objects company db.nonConformities).filter (fun r => decide (r.2.status = .open) &&
        (decide (r.2.inspection = latest.1) || decide (some r.2.inspection = latest.2.detail.follows)))
      Inspections.Register.whileOpen latest.2.detail.correctionDeadline open_.length

/-- `PortalElevatorSerializer`, with `OpenCorrectionMixin`. -/
def showElevator (account : Account) (today : Date) (r : Nat × Elevator) : PortalElevator :=
  let correction := openCorrection db account.company r.1
  { id := r.1
    name := r.2.name
    building := r.2.building
    buildingName := buildingName db r.2.building
    status := r.2.status
    lastMaintenanceDate := r.2.lastMaintenanceDate
    nextMaintenanceDate := r.2.nextMaintenanceDate
    inspectionLabel := r.2.inspectionLabel
    nextInspectionDate := r.2.nextInspectionDate
    correctionDeadline := correction.1
    correctionDaysLeft := correction.1.map (fun deadline => deadline.ordinal - today.ordinal)
    openNonconformities := correction.2 }

def showFile (r : Nat × StoredFile) : PortalFile where
  id := r.1
  originalFilename := r.2.attachment.originalFilename
  mimeType := r.2.attachment.mimeType
  category := r.2.attachment.category

/-- The files of a visit of one category, as `PortalVisitViewSet.get_serializer` reads them. -/
def visitFiles (company : Nat) (category : AttachmentCategory) (visit : Nat) : Rows StoredFile :=
  oldestFirst StoredFile.createdAt ((objects company db.files).filter (fun r =>
    decide (r.2.attachment.objectType = .maintenanceVisit) && decide (r.2.attachment.category = category) &&
      decide (r.2.attachment.objectId = visit)))

/-- `with_signature`: whatever firm the image is filed under. -/
def hasSignatureImage (visit : Nat) : Bool :=
  db.files.any (fun r => decide (r.2.attachment.objectType = .maintenanceVisit) &&
    decide (r.2.attachment.objectId = visit) && decide (r.2.attachment.category = .signature) &&
      !r.2.attachment.isDeleted)

/-- `PortalVisitSerializer` -/
def showVisit (itemOrder : Comparator (Nat × VisitItem)) (account : Account) (r : Nat × MaintenanceVisit) :
    PortalVisit where
  id := r.1
  elevator := r.2.elevator
  elevatorName := elevatorName db r.2.elevator
  visitDate := r.2.record.form.visit.visitDate
  status := r.2.record.form.visit.status
  technicianFirstName := db.firstNames.get? r.2.record.form.visit.technician
  partsReplaced := r.2.record.form.partsReplaced
  items := (itemOrder.sort ((objects account.company db.items).filter (fun i => decide (i.2.item.visit = r.1)))).map
    (fun i => (i.2.item.entry.item, i.2.item.entry.result))
  photos := (visitFiles db account.company .photo r.1).map showFile
  signatureState := signatureState r.2.record (hasSignatureImage db r.1)
  signerName := r.2.record.signature.signerName
  signerRole := r.2.record.signature.signerRole
  signedAt := r.2.record.signature.signedAt
  amendedAfterSignature := r.2.record.amendedAfterSignature
  signature := ((visitFiles db account.company .signature r.1).map showFile).getLast?

def showNonConformity (r : Nat × NonConformity) : PortalNonConformity where
  id := r.1
  description := r.2.description
  severity := r.2.severity
  status := r.2.status
  fixedOn := r.2.fixedOn

/-- `PortalInspectionSerializer` -/
def showInspection (account : Account) (r : Nat × Inspection) : PortalInspection where
  id := r.1
  elevator := r.2.inspection.elevator
  elevatorName := elevatorName db r.2.inspection.elevator
  kind := r.2.detail.kind
  inspectedOn := r.2.inspection.inspectedOn
  inspectionBody := r.2.inspection.inspectionBody
  reportNumber := r.2.inspection.reportNumber
  label := r.2.inspection.label
  nextInspectionDue := r.2.inspection.nextInspectionDue
  report := r.2.detail.report
  nonconformities := (oldestFirst NonConformity.createdAt ((objects account.company db.nonConformities).filter
    (fun n => decide (n.2.inspection = r.1)))).map showNonConformity

/-- `PortalFaultSerializer` -/
def showFault (account : Account) (r : Nat × Fault) : PortalFault where
  id := r.1
  reference := r.2.fault.reference
  elevator := r.2.fault.elevator
  elevatorName := elevatorName db r.2.fault.elevator
  buildingName := ((db.elevators.get? r.2.fault.elevator).map Elevator.building).bind (buildingName db)
  channel := r.2.fault.channel
  status := r.2.fault.status
  priority := r.2.fault.priority
  description := r.2.fault.description
  reportedAt := r.2.fault.reportedAt
  assignedAt := r.2.fault.assignedAt
  onSiteAt := r.2.fault.onSiteAt
  resolvedAt := r.2.fault.resolvedAt
  closedAt := r.2.fault.closedAt
  cancelledAt := r.2.fault.cancelledAt
  technicianFirstName := r.2.fault.technician.bind (fun technician => db.firstNames.get? technician)
  resolutionNotes := r.2.fault.resolutionNotes
  reportedByMe := decide (r.2.reportedByPortalAccount = some account.id)

def showReport (r : Nat × CustomerReport) : PortalReport where
  id := r.1
  period := r.2.period
  file := r.2.file
  generatedAt := r.2.generatedAt
  summary := r.2.summary

/-! ## Endpoints -/

/-- How the database orders what it stores. -/
structure Collation where
  elevators : Table PortalElevator
  visits : Table PortalVisit
  inspections : Table PortalInspection
  faults : Table PortalFault
  reports : Table PortalReport
  items : Comparator (Nat × VisitItem)

def elevatorView : View where
  orderingFields := ["id", "name", "building", "building__name", "status", "last_maintenance_date",
    "next_maintenance_date", "inspection_label", "next_inspection_date"]
  ordering := [⟨"name", false⟩, ⟨"id", false⟩]

/-- The nested `items`, which the list would join and repeat its rows by, are left out. -/
def visitView : View where
  orderingFields := ["id", "elevator", "elevator__name", "visit_date", "status", "technician__first_name",
    "parts_replaced", "signer_name", "signer_role", "signed_at", "amended_after_signature"]
  ordering := [⟨"visit_date", true⟩, ⟨"id", true⟩]

/-- And the nested `nonconformities`. -/
def inspectionView : View where
  orderingFields := ["id", "elevator", "elevator__name", "kind", "inspected_on", "inspection_body", "report_number",
    "label", "next_inspection_due", "report"]
  ordering := [⟨"inspected_on", true⟩, ⟨"id", true⟩]

def faultView : View where
  orderingFields := ["id", "reference", "elevator", "elevator__name", "elevator__building__name", "channel", "status",
    "priority", "description", "reported_at", "assigned_at", "on_site_at", "resolved_at", "closed_at", "cancelled_at",
    "resolution_notes"]
  ordering := [⟨"reported_at", true⟩, ⟨"id", true⟩]

def reportView : View where
  orderingFields := ["id", "period", "file", "generated_at", "summary"]
  ordering := [⟨"period", true⟩, ⟨"id", false⟩]

/-- A `GET` of the portal. -/
inductive Request where
  | elevators (params : Params)
  | elevator (id : Nat)
  | visits (elevator : Option Nat) (params : Params)
  | visit (id : Nat)
  | inspections (elevator : Option Nat) (params : Params)
  | inspection (id : Nat)
  | faults (elevator : Option Nat) (status : Option FaultStatus) (params : Params)
  | fault (id : Nat)
  | reports (params : Params)
  | report (id : Nat)
  | downloadUrl (id : Nat)

inductive Response where
  | elevators (page : Page PortalElevator)
  | elevator (row : PortalElevator)
  | visits (page : Page PortalVisit)
  | visit (row : PortalVisit)
  | inspections (page : Page PortalInspection)
  | inspection (row : PortalInspection)
  | faults (page : Page PortalFault)
  | fault (row : PortalFault)
  | reports (page : Page PortalReport)
  | report (row : PortalReport)
  /-- A signed URL, of the object under a key. -/
  | url (storageKey : String)
  | notFound
  /-- `invalid_choice`, of the filter. -/
  | invalidChoice
  deriving DecidableEq

def listed {σ : Type} (table : Table σ) (view : View) (params : Params) (wrap : Page σ -> Response) (rows : List σ) :
    Response :=
  match Lists.answer table view params rows with
  | none => .notFound
  | some page => wrap page

def retrieved {ρ : Type} (rows : Rows ρ) (id : Nat) (show_ : Nat × ρ -> Response) : Response :=
  match rows.get? id with
  | none => .notFound
  | some row => show_ (id, row)

/-- The lifts a filter may name: those of the whole firm. -/
def namesALift (account : Account) (elevator : Option Nat) : Bool :=
  elevator.all (fun id => ((objects account.company db.elevators).get? id).isSome)

def about (elevator : Option Nat) (lift : Nat) : Bool := elevator.all (fun id => decide (lift = id))

def elevatorsOf (account : Account) : Rows Elevator :=
  getQueryset account (fun row => customerOfBuilding db row.building) db.elevators

def visitsOf (account : Account) : Rows MaintenanceVisit :=
  getQueryset account (fun row => customerOfElevator db row.elevator) db.visits

def inspectionsOf (account : Account) : Rows Inspection :=
  getQueryset account (fun row => customerOfElevator db row.inspection.elevator) db.inspections

def faultsOf (account : Account) : Rows Fault :=
  getQueryset account (fun row => customerOfElevator db row.fault.elevator) db.faults

def reportsOf (account : Account) : Rows CustomerReport :=
  getQueryset account (fun row => some row.customer) db.reports

/-- `files_of_customer`, with the account's firm on the queries it asks `object_id` to be in. -/
def fileOfCustomer (account : Account) (attachment : Attachment) : Bool :=
  (decide (attachment.objectType = .maintenanceVisit) &&
      decide (attachment.category = .photo ∨ attachment.category = .signature) &&
      (visitsOf db account).any (fun r => decide (r.1 = attachment.objectId))) ||
    (decide (attachment.objectType = .inspection) && decide (attachment.category = .inspectionReport) &&
      (inspectionsOf db account).any (fun r => decide (r.1 = attachment.objectId))) ||
    (decide (attachment.objectType = .fault) && decide (attachment.category = .photo) &&
      (faultsOf db account).any (fun r => decide (r.1 = attachment.objectId))) ||
    (decide (attachment.objectType = .customer) && decide (attachment.category = .monthlyReport) &&
      decide (attachment.objectId = account.customer))

/-- `PortalFileViewSet.get_queryset` -/
def filesOf (account : Account) : Rows StoredFile :=
  (objects account.company db.files).filter (fun r => fileOfCustomer db account r.2.attachment)

def respond (c : Collation) (today : Date) (account : Account) : Request -> Response
  | .elevators params =>
      listed c.elevators elevatorView params .elevators ((elevatorsOf db account).map (showElevator db account today))
  | .elevator id => retrieved (elevatorsOf db account) id (fun r => .elevator (showElevator db account today r))
  | .visits elevator params =>
      if namesALift db account elevator then
        listed c.visits visitView params .visits
          (((visitsOf db account).filter (fun r => about elevator r.2.elevator)).map (showVisit db c.items account))
      else .invalidChoice
  | .visit id => retrieved (visitsOf db account) id (fun r => .visit (showVisit db c.items account r))
  | .inspections elevator params =>
      if namesALift db account elevator then
        listed c.inspections inspectionView params .inspections
          (((inspectionsOf db account).filter (fun r => about elevator r.2.inspection.elevator)).map
            (showInspection db account))
      else .invalidChoice
  | .inspection id => retrieved (inspectionsOf db account) id (fun r => .inspection (showInspection db account r))
  | .faults elevator status params =>
      if namesALift db account elevator then
        listed c.faults faultView params .faults
          (((faultsOf db account).filter (fun r =>
            about elevator r.2.fault.elevator && status.all (fun status => decide (r.2.fault.status = status)))).map
              (showFault db account))
      else .invalidChoice
  | .fault id => retrieved (faultsOf db account) id (fun r => .fault (showFault db account r))
  | .reports params => listed c.reports reportView params .reports ((reportsOf db account).map showReport)
  | .report id => retrieved (reportsOf db account) id (fun r => .report (showReport r))
  | .downloadUrl id => retrieved (filesOf db account) id (fun r => .url r.2.attachment.storageKey)

/-! ## Reporting -/

/-- `PortalFaultReportSerializer`, valid or not. -/
def accepts (account : Account) (elevator : Nat) (report : Faults.PublicReport) : Bool :=
  ((elevatorsOf db account).get? elevator).isSome &&
    (report.someoneTrapped || decide (strip report.description ≠ ""))

/-- `_stop` -/
def Elevator.stop (row : Elevator) : Elevator :=
  if row.status = .active then { row with status := .outOfService } else row

/-- The row `report_by_portal` makes. -/
def reported (account : Account) (elevator : Nat) (report : Faults.PublicReport) (now : Nat) (reference : String) :
    Fault where
  company := account.company
  fault := { report.row .customerPortal elevator now with reference := reference }
  reportedByPortalAccount := some account.id
  isDeleted := false

/-- `PortalFaultViewSet.create`, under a new key and a reference that is free. -/
def create (account : Account) (elevator : Nat) (report : Faults.PublicReport) (id now : Nat) (reference : String) :
    Database :=
  if accepts db account elevator report ∧ db.faults.get? id = none then
    { db with
      faults := db.faults.insert id (reported account elevator report now reference)
      elevators := if report.elevatorStopped then db.elevators.update elevator Elevator.stop else db.elevators }
  else db

/-- What a report is answered: the fault it has made, or nothing when the form is refused. -/
def answerReport (c : Collation) (today : Date) (account : Account) (elevator : Nat) (report : Faults.PublicReport)
    (id now : Nat) (reference : String) : Option Response :=
  if accepts db account elevator report then
    some (respond (create db account elevator report id now reference) c today account (.fault id))
  else none

inductive Event where
  | get (account : Account) (request : Request)
  | report (account : Account) (elevator : Nat) (report : Faults.PublicReport) (id now : Nat) (reference : String)

def Event.account : Event -> Account
  | .get account _ => account
  | .report account _ _ _ _ _ => account

/-- The key that is drawn for a report. -/
def Event.key : Event -> Option Nat
  | .get _ _ => none
  | .report _ _ _ id _ _ => some id

def step : Event -> Database
  | .get _ _ => db
  | .report account elevator report id now reference => create db account elevator report id now reference

end Views
end Portal
end Shiftlush
