import Shiftlush.Fleet.Services
import Shiftlush.References

namespace Shiftlush

/-!
# Customers, complexes, buildings and lifts

The create, edit and delete calls of `apps.customers`, `apps.properties` and `apps.elevators` on the
rows of one firm, and the lifts' contracts beside them.  "PROTECT does not fire on a soft delete", so
each delete asks what still stands on the row.
-/

namespace Fleet

/-! ## What a request names -/

/-- The customer a contract request names. -/
def Event.customer : Event -> Option Nat
  | .createContract new => some new.customer
  | .editContract _ changes => changes.customer
  | _ => none

/-- The contract a request is on. -/
def Event.contract : Event -> Option Nat
  | .editContract id _ => some id
  | .addElevators id _ _ _ => some id
  | .removeElevator id _ _ => some id
  | .terminate id _ _ => some id
  | .renew id _ _ _ _ => some id
  | .expire id _ => some id
  | _ => none

/-- The lifts a request names. -/
def Event.lifts : Event -> List Nat
  | .addElevators _ elevators _ _ => elevators
  | .recordInspection new _ => [new.elevator]
  | .reportByStaff elevator _ _ _ _ _ => [elevator]
  | .reportPublic elevator _ _ => [elevator]
  | .reportByPortal elevator _ _ => [elevator]
  | _ => []

end Fleet

namespace Estate

open Fleet (ElevatorStatus Firm)
open References (SoftDelete alive find? isDeleted lives strike)

/-! ## Rows -/

structure Customer where
  isDeleted : Bool
  deriving DecidableEq

structure Complex where
  customer : Nat
  isDeleted : Bool
  deriving DecidableEq

structure Building where
  customer : Nat
  complex : Option Nat
  isDeleted : Bool
  deriving DecidableEq

structure Lift where
  building : Nat
  registrationNumber : String
  qrToken : String
  isDeleted : Bool
  deriving DecidableEq

instance : SoftDelete Customer := ⟨Customer.isDeleted, fun row => { row with isDeleted := true }, fun _ => rfl⟩
instance : SoftDelete Complex := ⟨Complex.isDeleted, fun row => { row with isDeleted := true }, fun _ => rfl⟩
instance : SoftDelete Building := ⟨Building.isDeleted, fun row => { row with isDeleted := true }, fun _ => rfl⟩
instance : SoftDelete Lift := ⟨Lift.isDeleted, fun row => { row with isDeleted := true }, fun _ => rfl⟩

structure Register where
  customers : Rows Customer
  complexes : Rows Complex
  buildings : Rows Building
  lifts : Rows Lift
  /-- The firm's lifts as its services have them, with its contracts and their lines. -/
  fleet : Firm
  /-- Contracts that are deleted. -/
  struck : List Nat
  /-- Tokens of other firms' lifts: the column is unique over all of them. -/
  elsewhere : List String
  nextId : Nat

def Register.empty : Register := ⟨[], [], [], [], Firm.empty, [], [], 0⟩

inductive Failure where
  | notFound
  /-- `does_not_exist`, of a field that names a record. -/
  | doesNotExist
  | recordInUse
  | elevatorAlreadyContracted
  | buildingCustomerMismatch
  /-- An `IntegrityError` that reaches the handler. -/
  | constraintViolation
  | fleet (failure : Fleet.Failure)
  deriving DecidableEq

/-! ## Tokens -/

/-- What the unique indexes refuse a row for. -/
inductive IntegrityError where
  | qrToken
  | registrationNumber
  deriving DecidableEq

/-- `MAX_ATTEMPTS` -/
def maxAttempts : Nat := 3

/-- `save_with_qr_token`, with so many attempts left after this one, the `k`-th. -/
def saveWithQrToken {α : Type} (save : String -> Except IntegrityError α) (draw : Nat -> String) :
    Nat -> Nat -> Except IntegrityError α
  | 0, k => save (draw k)
  | left + 1, k =>
      match save (draw k) with
      | .error .qrToken => saveWithQrToken save draw left (k + 1)
      | outcome => outcome

namespace Register

variable (s : Register)

/-- The token is another row's, deleted or not, or another firm's. -/
def tokenTaken (id : Nat) (token : String) : Bool :=
  s.lifts.any (fun r => decide (r.1 ≠ id) && decide (r.2.qrToken = token)) || s.elsewhere.contains token

/-- `uq_elevator_registration_number_active` -/
def numberTaken (id : Nat) (number : String) : Bool :=
  decide (number ≠ "") &&
    s.lifts.any (fun r => alive r && decide (r.1 ≠ id) && decide (r.2.registrationNumber = number))

/-- What the indexes make of a row that is to be written under a key. -/
def checkLift (id : Nat) (row : Lift) : Except IntegrityError Lift :=
  if s.tokenTaken id row.qrToken then .error .qrToken
  else if s.numberTaken id row.registrationNumber then .error .registrationNumber
  else .ok row

/-! ## Contracts of the firm -/

/-- `Contract.objects` -/
def contractLives (id : Nat) : Bool := (s.fleet.contracts.get? id).isSome && decide (id ∉ s.struck)

end Register

/-! ## Requests -/

inductive Event where
  | createCustomer
  | deleteCustomer (id : Nat)
  | createComplex (customer : Nat)
  | editComplex (id : Nat) (customer : Option Nat)
  | deleteComplex (id : Nat)
  | createBuilding (customer : Nat) (complex : Option Nat)
  | editBuilding (id : Nat) (customer : Option Nat) (complex : Option (Option Nat))
  | deleteBuilding (id : Nat)
  | createElevator (building : Nat) (registrationNumber : String) (status : Option ElevatorStatus)
      (draw : Nat -> String)
  | editElevator (id : Nat) (building : Option Nat) (registrationNumber : Option String)
      (status : Option ElevatorStatus)
  | regenerateQr (id : Nat) (draw : Nat -> String)
  | deleteElevator (id : Nat)
  | deleteContract (id : Nat)
  /-- A request to the firm's services, of any other kind. -/
  | fleet (event : Fleet.Event)
  /-- A lift of another firm is given a token. -/
  | elsewhere (token : String)

namespace Register

variable (s : Register)

/-- A field that names a record: `PrimaryKeyRelatedField`, on the live rows of the firm. -/
def checkNamed {ρ : Type} [SoftDelete ρ] (rows : Rows ρ) (id : Option Nat) : Except Failure Unit :=
  if id.all (lives rows) then .ok () else .error .doesNotExist

/-- `get_object` -/
def getObject {ρ : Type} [SoftDelete ρ] (rows : Rows ρ) (id : Nat) : Except Failure ρ :=
  match find? rows id with
  | some row => .ok row
  | none => .error .notFound

/-- `BuildingWriteSerializer.validate`: "A complex belongs to one customer." -/
def checkComplex (complex : Option Nat) (customer : Nat) : Except Failure Unit :=
  if (complex.bind s.complexes.get?).all (fun row => decide (row.customer = customer)) then .ok ()
  else .error .buildingCustomerMismatch

/-- `instance.buildings.exists()`, and `instance.contracts.exists()`. -/
def customerInUse (id : Nat) : Bool :=
  s.buildings.any (fun r => alive r && decide (some r.2.customer = some id)) ||
    s.fleet.contracts.any (fun r => decide (r.1 ∉ s.struck) && decide (some r.2.customer = some id))

def complexInUse (id : Nat) : Bool := s.buildings.any (fun r => alive r && decide (r.2.complex = some id))

def buildingInUse (id : Nat) : Bool := s.lifts.any (fun r => alive r && decide (some r.2.building = some id))

/-- The firm's services, on live records. -/
def checkFleet (event : Fleet.Event) : Except Failure Unit :=
  if event.customer.any (fun id => !lives s.customers id) then .error .doesNotExist
  else if event.contract.any (fun id => !s.contractLives id) then .error .notFound
  else if event.lifts.any (fun id => !lives s.lifts id) then .error .notFound
  else .ok ()

/-- A lift's own create and edit calls have a place here. -/
def placesLift : Fleet.Event -> Bool
  | .createElevator _ => true
  | .editElevator _ _ => true
  | _ => false

def attemptFleet (event : Fleet.Event) : Except Failure Register :=
  match s.fleet.attempt event with
  | .ok fleet => .ok { s with fleet := fleet }
  | .error failure => .error (.fleet failure)

/-- `ElevatorViewSet.perform_create` -/
def createElevator (building : Nat) (registrationNumber : String) (status : Option ElevatorStatus)
    (draw : Nat -> String) : Except Failure Register := do
  checkNamed s.buildings (some building)
  let s' ← s.attemptFleet (.createElevator status)
  let id := s.fleet.nextId
  let save token := s.checkLift id ⟨building, registrationNumber, token, false⟩
  match saveWithQrToken save draw (maxAttempts - 1) 0 with
  | .ok row => .ok { s' with lifts := s.lifts.insert id row }
  | .error _ => .error .constraintViolation

/-- `ElevatorWriteSerializer`, of a PATCH. -/
def editElevator (id : Nat) (building : Option Nat) (registrationNumber : Option String)
    (status : Option ElevatorStatus) : Except Failure Register := do
  let row ← getObject s.lifts id
  checkNamed s.buildings building
  let s' ← s.attemptFleet (.editElevator id status)
  let edited := { row with
    building := building.getD row.building
    registrationNumber := registrationNumber.getD row.registrationNumber }
  match s.checkLift id edited with
  | .ok _ => .ok { s' with lifts := s.lifts.update id (fun row =>
      { row with
        building := building.getD row.building
        registrationNumber := registrationNumber.getD row.registrationNumber }) }
  | .error _ => .error .constraintViolation

/-- `regenerate_qr_token` -/
def regenerateQr (id : Nat) (draw : Nat -> String) : Except Failure Register := do
  let row ← getObject s.lifts id
  match saveWithQrToken (fun token => s.checkLift id { row with qrToken := token }) draw (maxAttempts - 1) 0 with
  | .ok written => .ok { s with lifts := s.lifts.update id (fun row => { row with qrToken := written.qrToken }) }
  | .error _ => .error .constraintViolation

def attempt : Event -> Except Failure Register
  | .createCustomer => .ok { s with customers := s.customers.insert s.nextId ⟨false⟩, nextId := s.nextId + 1 }
  | .deleteCustomer id => do
      let _ ← getObject s.customers id
      if s.customerInUse id then .error .recordInUse
      else .ok { s with customers := strike s.customers id }
  | .createComplex customer => do
      checkNamed s.customers (some customer)
      .ok { s with complexes := s.complexes.insert s.nextId ⟨customer, false⟩, nextId := s.nextId + 1 }
  | .editComplex id customer => do
      let _ ← getObject s.complexes id
      checkNamed s.customers customer
      .ok { s with complexes := s.complexes.update id (fun row =>
        { row with customer := customer.getD row.customer }) }
  | .deleteComplex id => do
      let _ ← getObject s.complexes id
      if s.complexInUse id then .error .recordInUse
      else .ok { s with complexes := strike s.complexes id }
  | .createBuilding customer complex => do
      checkNamed s.customers (some customer)
      checkNamed s.complexes complex
      s.checkComplex complex customer
      .ok { s with buildings := s.buildings.insert s.nextId ⟨customer, complex, false⟩, nextId := s.nextId + 1 }
  | .editBuilding id customer complex => do
      let row ← getObject s.buildings id
      checkNamed s.customers customer
      checkNamed s.complexes (complex.getD none)
      s.checkComplex (complex.getD row.complex) (customer.getD row.customer)
      .ok { s with buildings := s.buildings.update id (fun row =>
        { row with customer := customer.getD row.customer, complex := complex.getD row.complex }) }
  | .deleteBuilding id => do
      let _ ← getObject s.buildings id
      if s.buildingInUse id then .error .recordInUse
      else .ok { s with buildings := strike s.buildings id }
  | .createElevator building registrationNumber status draw =>
      s.createElevator building registrationNumber status draw
  | .editElevator id building registrationNumber status => s.editElevator id building registrationNumber status
  | .regenerateQr id draw => s.regenerateQr id draw
  | .deleteElevator id => do
      let _ ← getObject s.lifts id
      if s.fleet.isHeld id then .error .elevatorAlreadyContracted
      else .ok { s with lifts := strike s.lifts id }
  | .deleteContract id =>
      if s.contractLives id = false then .error .notFound
      else if s.fleet.openLines id ≠ [] then .error .recordInUse
      else .ok { s with struck := id :: s.struck }
  | .fleet event =>
      if placesLift event then .error .notFound
      else do
        s.checkFleet event
        s.attemptFleet event
  | .elsewhere token =>
      if s.lifts.any (fun r => decide (r.2.qrToken = token)) then .error .constraintViolation
      else .ok { s with elsewhere := token :: s.elsewhere }

/-- A refused request leaves the register as it is. -/
def step (event : Event) : Register :=
  match s.attempt event with
  | .ok s' => s'
  | .error _ => s

/-! ## Lists -/

/-- `Customer.building_count` -/
def customerBuildings (customer : Nat) : Nat :=
  s.buildings.countP (fun r => alive r && decide (r.2.customer = customer))

/-- `Customer.elevator_count`: the join goes through every building, deleted or not. -/
def customerElevators (customer : Nat) : Nat :=
  s.lifts.countP (fun r => alive r && decide ((s.buildings.get? r.2.building).map Building.customer = some customer))

/-- `Complex.building_count` -/
def complexBuildings (complex : Nat) : Nat :=
  s.buildings.countP (fun r => alive r && decide (r.2.complex = some complex))

/-- `Complex.elevator_count` -/
def complexElevators (complex : Nat) : Nat :=
  s.lifts.countP (fun r => alive r && decide ((s.buildings.get? r.2.building).bind Building.complex = some complex))

/-- `Building.elevator_count` -/
def buildingElevators (building : Nat) : Nat :=
  s.lifts.countP (fun r => alive r && decide (r.2.building = building))

/-- The narrowing of `get_queryset`: a technician sees the lifts of the customers assigned to
them, anybody else the whole firm. -/
def sees (assigned : Option (List Nat)) (lift : Lift) : Bool :=
  match assigned with
  | none => true
  | some customers =>
      ((s.buildings.get? lift.building).map Building.customer).any (fun customer => decide (customer ∈ customers))

/-- `ElevatorViewSet.by_qr` -/
def byQr (assigned : Option (List Nat)) (token : String) : Option Nat :=
  (s.lifts.find? (fun r => alive r && s.sees assigned r.2 && decide (r.2.qrToken = token))).map Prod.fst

end Register
end Estate
end Shiftlush
