import Shiftlush.Address.Matching
import Shiftlush.Upserts

namespace Shiftlush
namespace Address

/-!
# Loading the address tables

`load_address_data`: the rows of the dataset inside the scope are written over the tables,
and a deliberate run then takes the provinces outside the scope away, with all that lies
under them, unless a record still points there.  The command is one transaction.

An identifier of the dataset is a natural number here, and a file is what reading its
lines gives.
-/

/-- `NeighborhoodType` -/
inductive NeighborhoodType
  | neighborhood
  | village
  | town
  deriving DecidableEq

/-- The check constraint `neighborhood_type_valid`. -/
def NeighborhoodType.ofValue : String -> Option NeighborhoodType
  | "neighborhood" => some .neighborhood
  | "village" => some .village
  | "town" => some .town
  | _ => none

structure ProvinceRow where
  name : String
  nameNormalized : String
  deriving DecidableEq

structure DistrictRow where
  provinceId : Nat
  name : String
  nameNormalized : String
  deriving DecidableEq

structure NeighborhoodRow where
  districtId : Nat
  name : String
  nameNormalized : String
  postalCode : String
  type : NeighborhoodType
  deriving DecidableEq

/-- The foreign keys into a neighbourhood from outside, in the order their labels sort. -/
inductive Holder
  | company
  | customer
  | building
  | complex
  deriving DecidableEq

def Holder.label : Holder -> String
  | company => "companies.Company.neighborhood"
  | customer => "customers.Customer.neighborhood"
  | building => "properties.Building.neighborhood"
  | complex => "properties.Complex.neighborhood"

def Holder.all : List Holder := [company, customer, building, complex]

/-- A record with an address, of any company, deleted or not. -/
structure Record where
  holder : Holder
  neighborhood : Option Nat
  deriving DecidableEq

structure Country where
  provinces : Rows ProvinceRow
  districts : Rows DistrictRow
  neighborhoods : Rows NeighborhoodRow
  records : Rows Record
  deriving DecidableEq

/-- `district__province_id` -/
def Country.provinceOf (c : Country) (row : NeighborhoodRow) : Option Nat :=
  (c.districts.get? row.districtId).map (·.provinceId)

/-! ## The files -/

structure ProvinceLine where
  id : Nat
  name : String

structure DistrictLine where
  id : Nat
  provinceId : Nat
  name : String

structure NeighborhoodLine where
  id : Nat
  districtId : Nat
  name : String
  postalCode : Option String
  type : Option String

/-- A directory, and the files in it. -/
structure Directory where
  path : String
  exists_ : Bool
  provinces : Option (List ProvinceLine)
  districts : Option (List DistrictLine)
  neighborhoods : Option (List NeighborhoodLine)

/-- A `CommandError`, or what the database refuses. -/
inductive Failure
  | command (message : String)
  | database
  deriving DecidableEq

/-- `_rows` -/
def Directory.rows {α : Type} (directory : Directory) (name : String) : Option (List α) -> Except Failure (List α)
  | some lines => .ok lines
  | none => .error (.command s!"{name} not found in {directory.path}.")

/-! ## Rows from lines -/

/-- A column of PostgreSQL: what goes over its width is cut when it is blank, and refused otherwise. -/
def varchar (width : Nat) (text : String) : Option String :=
  if (text.toList.drop width).all (fun c => decide (c = ' ')) then some (.ofList (text.toList.take width)) else none

/-- `SmallIntegerField`, `IntegerField` -/
def bounded (bound id : Nat) : Option Nat := if id ≤ bound then some id else none

section Code

variable (u : Unicode)

def ProvinceLine.row (line : ProvinceLine) : Option (Nat × ProvinceRow) := do
  let id ← bounded 32767 line.id
  let name ← varchar 50 line.name
  let nameNormalized ← varchar 50 (normalize u line.name)
  some (id, { name, nameNormalized })

def DistrictLine.row (line : DistrictLine) : Option (Nat × DistrictRow) := do
  let id ← bounded 2147483647 line.id
  let name ← varchar 80 line.name
  let nameNormalized ← varchar 80 (normalize u line.name)
  some (id, { provinceId := line.provinceId, name, nameNormalized })

/-- `row.get("type") or NeighborhoodType.NEIGHBORHOOD` -/
def NeighborhoodLine.typeText (line : NeighborhoodLine) : String :=
  if line.type.getD "" = "" then "neighborhood" else line.type.getD ""

def NeighborhoodLine.row (line : NeighborhoodLine) : Option (Nat × NeighborhoodRow) := do
  let id ← bounded 2147483647 line.id
  let name ← varchar 120 line.name
  let nameNormalized ← varchar 120 (normalize u line.name)
  let postalCode ← varchar 5 (line.postalCode.getD "")
  let type ← NeighborhoodType.ofValue line.typeText
  some (id, { districtId := line.districtId, name, nameNormalized, postalCode, type })

/-- `bulk_create`, refused as a whole. -/
def bulkCreate {α ρ : Type} (size : Nat) (row : α -> Option (Nat × ρ)) (rows : Rows ρ) (lines : List α) :
    Except Failure (Rows ρ) :=
  match (lines.mapM row).bind (Rows.upsertBatches size rows) with
  | some after => .ok after
  | none => .error .database

/-! ## Loading -/

def batchSize : Nat := 2000

/-- The codes of the scope that no line has, in order. -/
def unknownCodes (scope known : List Nat) : List Nat :=
  List.insertionSort (· ≤ ·) (scope.dedup.filter (fun code => !known.contains code))

def unknownMessage (codes : List Nat) : String :=
  "ADDRESS_PROVINCES names province(s) that are not in province.csv: " ++ ", ".intercalate (codes.map toString) ++
    ". The value is a comma-separated list of licence-plate codes, 1-81."

/-- `scope or frozenset(known)` -/
def wanted (scope : List Nat) (lines : List ProvinceLine) : List Nat :=
  if scope = [] then lines.map (·.id) else scope

def provincesIn (ids : List Nat) (lines : List ProvinceLine) : List ProvinceLine :=
  lines.filter (fun line => ids.contains line.id)

def districtsIn (ids : List Nat) (lines : List DistrictLine) : List DistrictLine :=
  lines.filter (fun line => ids.contains line.provinceId)

def neighborhoodsIn (ids : List Nat) (lines : List NeighborhoodLine) : List NeighborhoodLine :=
  lines.filter (fun line => ids.contains line.districtId)

/-- `_load_provinces`, in one batch. -/
def loadProvinces (directory : Directory) (scope : List Nat) (rows : Rows ProvinceRow) :
    Except Failure (Rows ProvinceRow × List Nat) := do
  let lines ← directory.rows "province.csv" directory.provinces
  let unknown := unknownCodes scope (lines.map (·.id))
  if unknown ≠ [] then .error (.command (unknownMessage unknown))
  else
    let ids := wanted scope lines
    let inside := provincesIn ids lines
    let after ← bulkCreate (max inside.length 1) (·.row u) rows inside
    .ok (after, ids)

/-- `_load_districts` -/
def loadDistricts (directory : Directory) (provinceIds : List Nat) (rows : Rows DistrictRow) :
    Except Failure (Rows DistrictRow × List Nat) := do
  let lines ← directory.rows "district.csv" directory.districts
  let inside := districtsIn provinceIds lines
  let after ← bulkCreate batchSize (·.row u) rows inside
  .ok (after, inside.map (·.id))

/-- `_load_neighborhoods` -/
def loadNeighborhoods (directory : Directory) (districtIds : List Nat) (rows : Rows NeighborhoodRow) :
    Except Failure (Rows NeighborhoodRow) := do
  let lines ← directory.rows "neighborhood.csv" directory.neighborhoods
  bulkCreate batchSize (·.row u) rows (neighborhoodsIn districtIds lines)

/-! ## Pruning -/

/-- The records that reach one of the provinces, for each foreign key. -/
def Country.references (c : Country) (provinceIds : List Nat) (holder : Holder) : Nat :=
  c.records.countP (fun r => decide (r.2.holder = holder) &&
    ((r.2.neighborhood.bind c.neighborhoods.get?).bind c.provinceOf).any provinceIds.contains)

def Country.blocking (c : Country) (provinceIds : List Nat) : List String :=
  (Holder.all.filter (fun holder => decide (c.references provinceIds holder ≠ 0))).map
    (fun holder => holder.label ++ ": " ++ toString (c.references provinceIds holder))

/-- `_refuse_if_referenced` -/
def refuseIfReferenced (c : Country) (provinceIds : List Nat) : Except Failure Unit :=
  if c.blocking provinceIds = [] then .ok ()
  else .error (.command ("Refusing to remove provinces that records still point at: " ++
    "; ".intercalate (c.blocking provinceIds) ++
    ". Move those records inside ADDRESS_PROVINCES first — nothing has been deleted."))

/-- One province's neighbourhoods, then its districts. -/
def Country.removeUnder (c : Country) (province : Nat) : Country :=
  { c with
    neighborhoods := c.neighborhoods.filter (fun r => decide (c.provinceOf r.2 ≠ some province))
    districts := c.districts.filter (fun r => decide (r.2.provinceId ≠ province)) }

def Country.removeProvinces (c : Country) (ids : List Nat) : Country :=
  { c with provinces := c.provinces.filter (fun r => !ids.contains r.1) }

/-- `_prune` -/
def prune (scope : List Nat) (c : Country) : Except Failure Country :=
  if scope = [] then .ok c
  else
    let doomed := (c.provinces.map Prod.fst).filter (fun id => !scope.contains id)
    if doomed = [] then .ok c
    else do
      refuseIfReferenced c doomed
      .ok ((doomed.foldl Country.removeUnder c).removeProvinces doomed)

/-! ## The command -/

/-- `_load` -/
def load (directory : Directory) (scope : List Nat) (pruned : Bool) (c : Country) : Except Failure Country := do
  let (provinces, provinceIds) ← loadProvinces u directory scope c.provinces
  let (districts, districtIds) ← loadDistricts u directory provinceIds c.districts
  let neighborhoods ← loadNeighborhoods u directory districtIds c.neighborhoods
  let loaded : Country := { c with provinces, districts, neighborhoods }
  if pruned then prune scope loaded else .ok loaded

/-- `_already_loaded` -/
def alreadyLoaded (scope : List Nat) (c : Country) : Bool :=
  if scope = [] then !c.provinces.isEmpty && !c.districts.isEmpty && !c.neighborhoods.isEmpty
  else
    scope.all (fun code => (c.provinces.get? code).isSome) &&
    scope.all (fun code => c.districts.any (fun r => decide (r.2.provinceId = code))) &&
    c.neighborhoods.any (fun r => (c.provinceOf r.2).any scope.contains)

/-- `handle` -/
def handle (scope : List Nat) (ifMissing : Bool) (directory : Directory) (c : Country) : Except Failure Country :=
  if ifMissing && alreadyLoaded scope c then .ok c
  else if !directory.exists_ then .error (.command s!"{directory.path} does not exist.")
  else load u directory scope (!ifMissing) c

end Code

end Address
end Shiftlush
