import Shiftlush.Portal.Views
import Shiftlush.Transitions
import Shiftlush.Upserts

namespace Shiftlush
namespace Portal
namespace Views

open Calendar (Date)
open Shiftlush.Lists (Params Table View)
open Transitions (run)

/-!
# One customer's portal does not depend on another's

What belongs to a customer is told by the joins.  A request reads through several of them, and its
answer is the one it would have if there were nothing else in the database, but for one bit: a
filter that names a lift of another customer of the same firm is answered by an empty list, and
one that names no lift of the firm is refused.
-/

/-- Primary keys. -/
structure Database.Keyed (db : Database) : Prop where
  buildings : db.buildings.Distinct
  elevators : db.elevators.Distinct
  visits : db.visits.Distinct
  inspections : db.inspections.Distinct
  faults : db.faults.Distinct
  firstNames : db.firstNames.Distinct

def customerOfVisit (db : Database) (visit : Nat) : Option Nat :=
  (db.visits.get? visit).bind (fun row => customerOfElevator db row.elevator)

def customerOfInspection (db : Database) (inspection : Nat) : Option Nat :=
  (db.inspections.get? inspection).bind (fun row => customerOfElevator db row.inspection.elevator)

def customerOfFault (db : Database) (fault : Nat) : Option Nat :=
  (db.faults.get? fault).bind (fun row => customerOfElevator db row.fault.elevator)

/-- A defect of an inspection of theirs, or of one that theirs follows. -/
def concernsDefect (db : Database) (customer : Nat) (row : NonConformity) : Bool :=
  decide (customerOfInspection db row.inspection = some customer) ||
    db.inspections.any (fun r => decide (customerOfElevator db r.2.inspection.elevator = some customer) &&
      decide (some row.inspection = r.2.detail.follows))

/-- Somebody who has been to a lift of theirs, or is on the way. -/
def concernsTechnician (db : Database) (customer technician : Nat) : Bool :=
  db.visits.any (fun r => decide (customerOfElevator db r.2.elevator = some customer) &&
      decide (r.2.record.form.visit.technician = technician)) ||
    db.faults.any (fun r => decide (customerOfElevator db r.2.fault.elevator = some customer) &&
      decide (r.2.fault.technician = some technician))

/-- A file of a visit, an inspection or a fault of theirs, or of the customer's own. -/
def concernsFile (db : Database) (customer : Nat) (attachment : Attachments.Attachment) : Bool :=
  match attachment.objectType with
  | .maintenanceVisit => decide (customerOfVisit db attachment.objectId = some customer)
  | .inspection => decide (customerOfInspection db attachment.objectId = some customer)
  | .fault => decide (customerOfFault db attachment.objectId = some customer)
  | .customer => decide (attachment.objectId = customer)
  | _ => false

/-- What there is of a customer. -/
def restrict (customer : Nat) (db : Database) : Database where
  buildings := db.buildings.filter (fun r => decide (some r.2.customer = some customer))
  elevators := db.elevators.filter (fun r => decide (customerOfBuilding db r.2.building = some customer))
  visits := db.visits.filter (fun r => decide (customerOfElevator db r.2.elevator = some customer))
  items := db.items.filter (fun r => decide (customerOfVisit db r.2.item.visit = some customer))
  inspections := db.inspections.filter (fun r => decide (customerOfElevator db r.2.inspection.elevator = some customer))
  nonConformities := db.nonConformities.filter (fun r => concernsDefect db customer r.2)
  faults := db.faults.filter (fun r => decide (customerOfElevator db r.2.fault.elevator = some customer))
  reports := db.reports.filter (fun r => decide (some r.2.customer = some customer))
  files := db.files.filter (fun r => concernsFile db customer r.2.attachment)
  firstNames := db.firstNames.filter (fun r => concernsTechnician db customer r.1)

variable {db : Database} {account : Account}

/-! ## Joins -/

section Joins

variable {customer : Nat}

theorem get?_kept {ρ : Type} {rows : Rows ρ} (distinct : rows.Distinct) (p : Nat × ρ -> Bool) {id : Nat} {row : ρ}
    (found : rows.get? id = some row) (here : p (id, row) = true) : Rows.get? (rows.filter p) id = some row := by
  rw [Rows.get?_filter distinct, found, Option.filter_some, if_pos here]

/-- A join through a table that keeps the rows of a customer leads to the customer where it did. -/
theorem join_restrict {ρ : Type} {rows : Rows ρ} (distinct : rows.Distinct) {path path' : ρ -> Option Nat}
    (same : ∀ row, path' row = some customer ↔ path row = some customer) (id : Nat) :
    (Rows.get? (rows.filter (fun r => decide (path r.2 = some customer))) id).bind path' = some customer ↔
      (rows.get? id).bind path = some customer := by
  rw [Rows.get?_filter distinct]
  cases rows.get? id with
  | none => exact Iff.rfl
  | some row =>
      rw [Option.filter_some, Option.bind_some]
      by_cases theirs : path row = some customer
      · rw [if_pos (decide_eq_true theirs), Option.bind_some]
        exact same row
      · rw [if_neg (by simpa using theirs)]
        exact iff_of_false (by simp) theirs

variable (keyed : db.Keyed)

include keyed

theorem building_restrict (building : Nat) :
    customerOfBuilding (restrict customer db) building = some customer ↔
      customerOfBuilding db building = some customer := by
  unfold customerOfBuilding
  rw [Option.map_eq_bind, Option.map_eq_bind]
  exact @join_restrict customer _ db.buildings keyed.buildings (some ∘ Building.customer)
    (some ∘ Building.customer) (fun _ => Iff.rfl) building

theorem elevator_restrict (elevator : Nat) :
    customerOfElevator (restrict customer db) elevator = some customer ↔
      customerOfElevator db elevator = some customer :=
  join_restrict keyed.elevators (fun row => building_restrict keyed row.building) elevator

omit keyed in
/-- The lift that a row of a customer's is of. -/
theorem lift_of_customer {elevator : Nat} (theirs : customerOfElevator db elevator = some customer) :
    ∃ row, db.elevators.get? elevator = some row ∧ customerOfBuilding db row.building = some customer :=
  Option.bind_eq_some_iff.mp theirs

omit keyed in
theorem building_of_customer {building : Nat} (theirs : customerOfBuilding db building = some customer) :
    ∃ row, db.buildings.get? building = some row ∧ row.customer = customer :=
  Option.map_eq_some_iff.mp theirs

theorem buildingName_restrict {building : Nat} (theirs : customerOfBuilding db building = some customer) :
    buildingName (restrict customer db) building = buildingName db building := by
  rcases building_of_customer theirs with ⟨row, found, here⟩
  unfold buildingName
  rw [found]
  congr 1
  exact get?_kept keyed.buildings _ found (decide_eq_true (congrArg some here))

theorem lift_restrict {elevator : Nat} (theirs : customerOfElevator db elevator = some customer) :
    (restrict customer db).elevators.get? elevator = db.elevators.get? elevator := by
  rcases lift_of_customer theirs with ⟨row, found, here⟩
  rw [found]
  exact get?_kept keyed.elevators _ found (decide_eq_true here)

theorem elevatorName_restrict {elevator : Nat} (theirs : customerOfElevator db elevator = some customer) :
    elevatorName (restrict customer db) elevator = elevatorName db elevator := by
  unfold elevatorName
  rw [lift_restrict keyed theirs]

end Joins

/-! ## Queries -/

section Queries

variable {ρ : Type} [CompanyOwned ρ]

omit [CompanyOwned ρ] in
theorem filter_filter_of_imp {rows : Rows ρ} {p q : Nat × ρ -> Bool} (imp : ∀ r, q r = true -> p r = true) :
    List.filter q (List.filter p rows) = List.filter q rows := by
  rw [List.filter_filter]
  apply List.filter_congr
  intro r _
  cases at_q : q r with
  | false => rw [Bool.false_and]
  | true => rw [imp r at_q, Bool.and_true]

/-- A query that asks for no more than a table's restriction keeps. -/
theorem objects_restrict {company : Nat} {rows : Rows ρ} {p q : Nat × ρ -> Bool}
    (imp : ∀ r, q r = true -> p r = true) :
    List.filter q (objects company (List.filter p rows)) = List.filter q (objects company rows) := by
  unfold objects
  rw [List.filter_comm, filter_filter_of_imp imp, List.filter_comm]

theorem getQueryset_restrict {path path' : ρ -> Option Nat} {rows : Rows ρ}
    (same : ∀ row, path' row = some account.customer ↔ path row = some account.customer) :
    getQueryset account path' (rows.filter (fun r => decide (path r.2 = some account.customer))) =
      getQueryset account path rows := by
  unfold getQueryset
  have paths : (fun r : Nat × ρ => decide (path' r.2 = some account.customer)) =
      fun r => decide (path r.2 = some account.customer) := by
    funext r
    rw [decide_eq_decide]
    exact same r.2
  rw [paths]
  exact objects_restrict (fun _ => id)

theorem mem_getQueryset {path : ρ -> Option Nat} {rows : Rows ρ} {r : Nat × ρ}
    (mem : r ∈ getQueryset account path rows) : r ∈ rows ∧ path r.2 = some account.customer := by
  have parts := List.mem_filter.mp mem
  exact ⟨(List.mem_filter.mp parts.1).1, of_decide_eq_true parts.2⟩

end Queries

/-! ## What is shown of a row -/

section Shown

variable (keyed : db.Keyed)

include keyed

omit keyed in
theorem customer_of_row {ρ : Type} {rows : Rows ρ} (distinct : rows.Distinct) {path : ρ -> Option Nat} {r : Nat × ρ}
    (mem : r ∈ rows) : (rows.get? r.1).bind path = path r.2 := by
  rw [Rows.get?_of_mem distinct mem, Option.bind_some]

theorem concernsDefect_of_inspection {r : Nat × Inspection} (mem : r ∈ db.inspections)
    (theirs : customerOfElevator db r.2.inspection.elevator = some account.customer) {row : NonConformity}
    (here : row.inspection = r.1 ∨ some row.inspection = r.2.detail.follows) :
    concernsDefect db account.customer row = true := by
  unfold concernsDefect
  rw [Bool.or_eq_true]
  rcases here with here | here
  · left
    rw [here, customerOfInspection, customer_of_row keyed.inspections mem, theirs]
    exact decide_eq_true rfl
  · right
    rw [List.any_eq_true]
    exact ⟨r, mem, by rw [theirs, here]; simp⟩

omit keyed in
theorem latestInspection_restrict {elevator : Nat} (theirs : customerOfElevator db elevator = some account.customer) :
    latestInspection (restrict account.customer db) account.company elevator =
      latestInspection db account.company elevator := by
  have rows : ((objects account.company (restrict account.customer db).inspections).filter
      (fun r => decide (r.2.inspection.elevator = elevator))) =
        (objects account.company db.inspections).filter (fun r => decide (r.2.inspection.elevator = elevator)) := by
    apply objects_restrict
    intro r here
    rw [of_decide_eq_true here]
    exact decide_eq_true theirs
  unfold latestInspection
  dsimp only
  rw [rows]

omit keyed in
theorem mem_of_latestInspection {company elevator : Nat} {latest : Nat × Inspection}
    (found : latestInspection db company elevator = some latest) :
    latest ∈ db.inspections ∧ latest.2.inspection.elevator = elevator := by
  unfold latestInspection at found
  rcases Option.bind_eq_some_iff.mp found with ⟨newest, _, chosen⟩
  rcases Option.map_eq_some_iff.mp chosen with ⟨row, listed, rfl⟩
  have parts := List.mem_filter.mp (Rows.mem_of_get? listed)
  exact ⟨(List.mem_filter.mp parts.1).1, of_decide_eq_true parts.2⟩

theorem openCorrection_restrict {elevator : Nat} (theirs : customerOfElevator db elevator = some account.customer) :
    openCorrection (restrict account.customer db) account.company elevator =
      openCorrection db account.company elevator := by
  unfold openCorrection
  rw [latestInspection_restrict theirs]
  cases found : latestInspection db account.company elevator with
  | none => rfl
  | some latest =>
      rcases mem_of_latestInspection found with ⟨mem, same⟩
      dsimp only
      congr 2
      apply objects_restrict
      intro r passes
      simp only [Bool.and_eq_true, Bool.or_eq_true, decide_eq_true_eq] at passes
      exact concernsDefect_of_inspection keyed mem (by rw [same]; exact theirs) passes.2

theorem showElevator_restrict (today : Date) {r : Nat × Elevator} (mem : r ∈ elevatorsOf db account) :
    showElevator (restrict account.customer db) account today r = showElevator db account today r := by
  rcases mem_getQueryset mem with ⟨listed, theirs⟩
  have lift : customerOfElevator db r.1 = some account.customer := by
    rw [customerOfElevator, customer_of_row keyed.elevators listed, theirs]
  unfold showElevator
  rw [openCorrection_restrict keyed lift, buildingName_restrict keyed theirs]

theorem firstName_restrict {technician : Nat} (theirs : concernsTechnician db account.customer technician = true) :
    (restrict account.customer db).firstNames.get? technician = db.firstNames.get? technician := by
  cases found : db.firstNames.get? technician with
  | some name => exact get?_kept keyed.firstNames _ found theirs
  | none =>
      change Rows.get? (db.firstNames.filter _) technician = none
      rw [Rows.get?_filter keyed.firstNames, found]
      rfl

omit keyed in
theorem visitFiles_restrict {category : Attachments.AttachmentCategory} {visit : Nat}
    (theirs : customerOfVisit db visit = some account.customer) :
    visitFiles (restrict account.customer db) account.company category visit =
      visitFiles db account.company category visit := by
  unfold visitFiles
  congr 1
  apply objects_restrict
  intro r passes
  simp only [Bool.and_eq_true, decide_eq_true_eq] at passes
  simp [concernsFile, passes.1.1, passes.2, theirs]

omit keyed in
theorem hasSignatureImage_restrict {visit : Nat} (theirs : customerOfVisit db visit = some account.customer) :
    hasSignatureImage (restrict account.customer db) visit = hasSignatureImage db visit := by
  unfold hasSignatureImage restrict
  rw [List.any_filter]
  apply List.any_congr rfl
  intro r
  rw [Bool.and_eq_right_iff_imp]
  intro passes
  simp only [Bool.and_eq_true, decide_eq_true_eq] at passes
  simp [concernsFile, passes.1.1.1, passes.1.1.2, theirs]

theorem showVisit_restrict (itemOrder : Comparator (Nat × VisitItem)) {r : Nat × MaintenanceVisit}
    (mem : r ∈ visitsOf db account) :
    showVisit (restrict account.customer db) itemOrder account r = showVisit db itemOrder account r := by
  rcases mem_getQueryset mem with ⟨listed, theirs⟩
  have visit : customerOfVisit db r.1 = some account.customer := by
    rw [customerOfVisit, customer_of_row keyed.visits listed, theirs]
  have technician : concernsTechnician db account.customer r.2.record.form.visit.technician = true := by
    rw [concernsTechnician, Bool.or_eq_true]
    exact Or.inl (List.any_eq_true.mpr ⟨r, listed, by rw [theirs]; simp⟩)
  have items : (objects account.company (restrict account.customer db).items).filter
      (fun i => decide (i.2.item.visit = r.1)) =
        (objects account.company db.items).filter (fun i => decide (i.2.item.visit = r.1)) := by
    apply objects_restrict
    intro i here
    rw [of_decide_eq_true here]
    exact decide_eq_true visit
  unfold showVisit
  rw [elevatorName_restrict keyed theirs, firstName_restrict keyed technician, items,
    visitFiles_restrict visit, visitFiles_restrict visit, hasSignatureImage_restrict visit]

theorem showInspection_restrict {r : Nat × Inspection} (mem : r ∈ inspectionsOf db account) :
    showInspection (restrict account.customer db) account r = showInspection db account r := by
  rcases mem_getQueryset mem with ⟨listed, theirs⟩
  have defects : (objects account.company (restrict account.customer db).nonConformities).filter
      (fun n => decide (n.2.inspection = r.1)) =
        (objects account.company db.nonConformities).filter (fun n => decide (n.2.inspection = r.1)) := by
    apply objects_restrict
    intro n here
    exact concernsDefect_of_inspection keyed listed theirs (Or.inl (of_decide_eq_true here))
  unfold showInspection
  rw [elevatorName_restrict keyed theirs, defects]

theorem showFault_restrict {r : Nat × Fault} (mem : r ∈ faultsOf db account) :
    showFault (restrict account.customer db) account r = showFault db account r := by
  rcases mem_getQueryset mem with ⟨listed, theirs⟩
  rcases lift_of_customer theirs with ⟨lift, found, ofTheirs⟩
  have building : (((restrict account.customer db).elevators.get? r.2.fault.elevator).map Elevator.building).bind
      (buildingName (restrict account.customer db)) =
        ((db.elevators.get? r.2.fault.elevator).map Elevator.building).bind (buildingName db) := by
    rw [lift_restrict keyed theirs, found]
    exact buildingName_restrict keyed ofTheirs
  have technician : r.2.fault.technician.bind (fun id => (restrict account.customer db).firstNames.get? id) =
      r.2.fault.technician.bind (fun id => db.firstNames.get? id) := by
    cases sent : r.2.fault.technician with
    | none => rfl
    | some id =>
        apply firstName_restrict keyed
        rw [concernsTechnician, Bool.or_eq_true]
        exact Or.inr (List.any_eq_true.mpr ⟨r, listed, by rw [theirs, sent]; simp⟩)
  unfold showFault
  rw [elevatorName_restrict keyed theirs, building, technician]

end Shown

/-! ## Answers -/

/-- The lift a request's filter names. -/
def Request.filtered : Request -> Option Nat
  | .visits lift _ => lift
  | .inspections lift _ => lift
  | .faults lift _ _ => lift
  | _ => none

/-- The filter names a lift of the firm that is another customer's. -/
def NamesForeign (db : Database) (account : Account) (request : Request) : Prop :=
  ∃ id, request.filtered = some id ∧ namesALift db account (some id) = true ∧
    customerOfElevator db id ≠ some account.customer

/-- The answer of a filter that finds nothing. -/
def nothing (c : Collation) : Request -> Response
  | .visits _ params => listed c.visits visitView params .visits []
  | .inspections _ params => listed c.inspections inspectionView params .inspections []
  | .faults _ _ params => listed c.faults faultView params .faults []
  | _ => .notFound

section Answers

variable (keyed : db.Keyed)

include keyed

theorem elevatorsOf_restrict : elevatorsOf (restrict account.customer db) account = elevatorsOf db account :=
  getQueryset_restrict (fun row : Elevator => building_restrict keyed row.building)

theorem visitsOf_restrict : visitsOf (restrict account.customer db) account = visitsOf db account :=
  getQueryset_restrict (fun row : MaintenanceVisit => elevator_restrict keyed row.elevator)

theorem inspectionsOf_restrict : inspectionsOf (restrict account.customer db) account = inspectionsOf db account :=
  getQueryset_restrict (fun row : Inspection => elevator_restrict keyed row.inspection.elevator)

theorem faultsOf_restrict : faultsOf (restrict account.customer db) account = faultsOf db account :=
  getQueryset_restrict (fun row : Fault => elevator_restrict keyed row.fault.elevator)

omit keyed in
theorem reportsOf_restrict : reportsOf (restrict account.customer db) account = reportsOf db account :=
  getQueryset_restrict (fun _ : CustomerReport => Iff.rfl)

omit keyed in
/-- A row that the queries of an account find is there, on a path to its customer. -/
theorem path_of_shown {ρ : Type} [CompanyOwned ρ] {rows : Rows ρ} (distinct : rows.Distinct) {path : ρ -> Option Nat}
    {id : Nat} (shown : (getQueryset account path rows).any (fun r => decide (r.1 = id)) = true) :
    (rows.get? id).bind path = some account.customer := by
  rcases List.any_eq_true.mp shown with ⟨r, mem, same⟩
  rcases mem_getQueryset mem with ⟨listed, theirs⟩
  rw [← of_decide_eq_true same, customer_of_row distinct listed, theirs]

theorem concernsFile_of_shown {attachment : Attachments.Attachment}
    (shown : fileOfCustomer db account attachment = true) : concernsFile db account.customer attachment = true := by
  unfold fileOfCustomer at shown
  simp only [Bool.or_eq_true, Bool.and_eq_true, decide_eq_true_eq] at shown
  unfold concernsFile
  rcases shown with ((⟨⟨type, _⟩, found⟩ | ⟨⟨type, _⟩, found⟩) | ⟨⟨type, _⟩, found⟩) | ⟨⟨type, _⟩, same⟩
  · rw [type]
    exact decide_eq_true (path_of_shown keyed.visits found)
  · rw [type]
    exact decide_eq_true (path_of_shown keyed.inspections found)
  · rw [type]
    exact decide_eq_true (path_of_shown keyed.faults found)
  · rw [type]
    exact decide_eq_true same

theorem filesOf_restrict : filesOf (restrict account.customer db) account = filesOf db account := by
  unfold filesOf
  have files : fileOfCustomer (restrict account.customer db) account = fileOfCustomer db account := by
    funext attachment
    unfold fileOfCustomer
    rw [visitsOf_restrict keyed, inspectionsOf_restrict keyed, faultsOf_restrict keyed]
  rw [files]
  exact objects_restrict (fun _ => concernsFile_of_shown keyed)

omit keyed in
theorem retrieved_congr {ρ : Type} {rows : Rows ρ} {shown shown' : Nat × ρ -> Response}
    (same : ∀ r ∈ rows, shown' r = shown r) (id : Nat) : retrieved rows id shown' = retrieved rows id shown := by
  unfold retrieved
  cases found : rows.get? id with
  | none => rfl
  | some row => exact same (id, row) (Rows.mem_of_get? found)

theorem namesALift_some (id : Nat) : namesALift db account (some id) = true ↔
    ∃ row, db.elevators.get? id = some row ∧ row.company = account.company ∧ row.isDeleted = false := by
  change ((objects account.company db.elevators).get? id).isSome = true ↔ _
  unfold objects
  rw [Rows.get?_filter keyed.elevators]
  cases db.elevators.get? id with
  | none => simp
  | some row => simp [CompanyOwned.company, CompanyOwned.isDeleted, Option.filter]

theorem keyed_restrict (customer : Nat) : (restrict customer db).Keyed :=
  ⟨keyed.buildings.filter _, keyed.elevators.filter _, keyed.visits.filter _, keyed.inspections.filter _,
    keyed.faults.filter _, keyed.firstNames.filter _⟩

theorem namesALift_restrict {elevator : Option Nat}
    (own : ∀ id, elevator = some id -> namesALift db account (some id) = true ->
      customerOfElevator db id = some account.customer) :
    namesALift (restrict account.customer db) account elevator = namesALift db account elevator := by
  cases elevator with
  | none => rfl
  | some id =>
      rw [Bool.eq_iff_iff, namesALift_some (keyed_restrict keyed account.customer), namesALift_some keyed]
      by_cases theirs : customerOfElevator db id = some account.customer
      · rw [lift_restrict keyed theirs]
      · refine iff_of_false ?_ ?_
        · rintro ⟨row, found, _⟩
          have mem := List.mem_filter.mp (Rows.mem_of_get? found)
          apply theirs
          rw [customerOfElevator, Rows.get?_of_mem keyed.elevators mem.1, Option.bind_some]
          exact of_decide_eq_true mem.2
        · rintro here
          exact theirs (own id rfl ((namesALift_some keyed id).mpr here))

/-- What a request answers is what it would answer if there were nothing of anybody else. -/
theorem respond_restrict (c : Collation) (today : Date) {request : Request} (own : ¬ NamesForeign db account request) :
    respond (restrict account.customer db) c today account request = respond db c today account request := by
  have named : namesALift (restrict account.customer db) account request.filtered =
      namesALift db account request.filtered := by
    apply namesALift_restrict keyed
    intro id filter named
    by_contra foreign
    exact own ⟨id, filter, named, foreign⟩
  cases request with
  | elevators params =>
      simp only [respond, elevatorsOf_restrict keyed]
      rw [List.map_congr_left (fun r mem => showElevator_restrict keyed today mem)]
  | elevator id =>
      simp only [respond, elevatorsOf_restrict keyed]
      exact retrieved_congr (fun r mem => congrArg Response.elevator (showElevator_restrict keyed today mem)) id
  | visits elevator params =>
      simp only [respond, visitsOf_restrict keyed]
      rw [show namesALift (restrict account.customer db) account elevator = namesALift db account elevator from named,
        List.map_congr_left (fun r mem => showVisit_restrict keyed c.items (List.mem_filter.mp mem).1)]
  | visit id =>
      simp only [respond, visitsOf_restrict keyed]
      exact retrieved_congr (fun r mem => congrArg Response.visit (showVisit_restrict keyed c.items mem)) id
  | inspections elevator params =>
      simp only [respond, inspectionsOf_restrict keyed]
      rw [show namesALift (restrict account.customer db) account elevator = namesALift db account elevator from named,
        List.map_congr_left (fun r mem => showInspection_restrict keyed (List.mem_filter.mp mem).1)]
  | inspection id =>
      simp only [respond, inspectionsOf_restrict keyed]
      exact retrieved_congr (fun r mem => congrArg Response.inspection (showInspection_restrict keyed mem)) id
  | faults elevator status params =>
      simp only [respond, faultsOf_restrict keyed]
      rw [show namesALift (restrict account.customer db) account elevator = namesALift db account elevator from named,
        List.map_congr_left (fun r mem => showFault_restrict keyed (List.mem_filter.mp mem).1)]
  | fault id =>
      simp only [respond, faultsOf_restrict keyed]
      exact retrieved_congr (fun r mem => congrArg Response.fault (showFault_restrict keyed mem)) id
  | reports params => simp only [respond, reportsOf_restrict]
  | report id => simp only [respond, reportsOf_restrict]
  | downloadUrl id => simp only [respond, filesOf_restrict keyed]

omit keyed in
theorem filter_foreign {ρ : Type} [CompanyOwned ρ] (rows : Rows ρ) (lift : ρ -> Nat) {id : Nat}
    (foreign : customerOfElevator db id ≠ some account.customer) {p : Nat × ρ -> Bool}
    (named : ∀ r, p r = true -> about (some id) (lift r.2) = true) :
    (getQueryset account (fun row => customerOfElevator db (lift row)) rows).filter p = [] := by
  rw [List.filter_eq_nil_iff]
  intro r mem passes
  have theirs := (mem_getQueryset mem).2
  have same : lift r.2 = id := of_decide_eq_true (named r passes)
  rw [same] at theirs
  exact foreign theirs

omit keyed in
theorem respond_foreign (c : Collation) (today : Date) {request : Request} (foreign : NamesForeign db account request) :
    respond db c today account request = nothing c request := by
  rcases foreign with ⟨id, filter, named, other⟩
  cases request with
  | visits elevator params =>
      have same : elevator = some id := filter
      have none_ := filter_foreign db.visits MaintenanceVisit.elevator other (fun r here => here)
      simp only [respond, nothing, same, named, if_true, visitsOf]
      rw [none_, List.map_nil]
  | inspections elevator params =>
      have same : elevator = some id := filter
      have none_ := filter_foreign db.inspections (fun row => row.inspection.elevator) other (fun r here => here)
      simp only [respond, nothing, same, named, if_true, inspectionsOf]
      rw [none_, List.map_nil]
  | faults elevator status params =>
      have same : elevator = some id := filter
      have none_ := @filter_foreign db account _ _ db.faults (fun row => row.fault.elevator) id other
        (fun r => about (some id) r.2.fault.elevator && status.all (fun status => decide (r.2.fault.status = status)))
        (fun r here => (Bool.and_eq_true_iff.mp here).1)
      simp only [respond, nothing, same, named, if_true, faultsOf]
      rw [none_, List.map_nil]
  | elevators params => cases filter
  | elevator id => cases filter
  | visit id => cases filter
  | inspection id => cases filter
  | fault id => cases filter
  | reports params => cases filter
  | report id => cases filter
  | downloadUrl id => cases filter

end Answers

/-- What an account is answered is what it would be if there were nothing of another customer in the
database, unless a filter of its names a lift of another customer of the firm: then it is a list of
nothing. -/
theorem answers_own (keyed : db.Keyed) (account : Account) (c : Collation) (today : Date) (request : Request) :
    (¬ NamesForeign db account request ->
        respond db c today account request = respond (restrict account.customer db) c today account request) ∧
      (NamesForeign db account request -> respond db c today account request = nothing c request) :=
  ⟨fun own => (respond_restrict keyed c today own).symm, respond_foreign c today⟩

/-- A database that compares rows by their keys alone. -/
def plain : Collation where
  elevators := ⟨PortalElevator.id, fun _ => Comparator.by_ PortalElevator.id, fun _ _ => rfl⟩
  visits := ⟨PortalVisit.id, fun _ => Comparator.by_ PortalVisit.id, fun _ _ => rfl⟩
  inspections := ⟨PortalInspection.id, fun _ => Comparator.by_ PortalInspection.id, fun _ _ => rfl⟩
  faults := ⟨PortalFault.id, fun _ => Comparator.by_ PortalFault.id, fun _ _ => rfl⟩
  reports := ⟨PortalReport.id, fun _ => Comparator.by_ PortalReport.id, fun _ _ => rfl⟩
  items := Comparator.by_ Prod.fst

/-- Two customers of a firm, with a lift each. -/
def neighbours : Database where
  buildings := [(1, ⟨1, 7, "Defne", false⟩), (2, ⟨1, 8, "Papatya", false⟩)]
  elevators := [(3, ⟨1, 1, "A", .active, none, none, .none, none, false⟩),
    (4, ⟨1, 2, "B", .active, none, none, .none, none, false⟩)]
  visits := []
  items := []
  inspections := []
  nonConformities := []
  faults := []
  reports := []
  files := []
  firstNames := []

theorem keyed_neighbours : neighbours.Keyed := by
  constructor <;> (change List.Nodup _; decide)

/-- The manager of Defne, of the lift of Papatya. -/
theorem answers_own_papatya :
    respond neighbours plain (.first 24312) ⟨5, 1, 7⟩ (.elevator 4) =
        respond (restrict 7 neighbours) plain (.first 24312) ⟨5, 1, 7⟩ (.elevator 4) ∧
      respond neighbours plain (.first 24312) ⟨5, 1, 7⟩ (.faults (some 4) none ⟨none, none, .number 1⟩) =
        nothing plain (.faults (some 4) none ⟨none, none, .number 1⟩) := by
  refine ⟨(answers_own keyed_neighbours ⟨5, 1, 7⟩ plain (.first 24312) (.elevator 4)).1 ?_,
    (answers_own keyed_neighbours ⟨5, 1, 7⟩ plain (.first 24312) (.faults (some 4) none ⟨none, none, .number 1⟩)).2
      ⟨4, rfl, by decide, by decide⟩⟩
  rintro ⟨lift, filter, _⟩
  cases filter

end Views
end Portal
end Shiftlush
