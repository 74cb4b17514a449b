import Shiftlush.Address.Matching
import Shiftlush.Saves
import Shiftlush.Uniqueness
import Shiftlush.Validators

namespace Shiftlush
namespace Customers

/-!
# The register of customers

`CustomerWriteSerializer` and `Customer.save`.  A request is checked against the rows of one
moment and written at a later one: between the two any other request may check or write, and
an update writes every column of the row it read, if the company still sees it.  The unique
constraints are asked at the write.
-/

inductive CustomerType
  | complexManagement
  | buildingManagement
  | corporate
  | public_
  | individual
  deriving DecidableEq

inductive ErrorCode
  | required
  | blank
  | invalidTaxNumber
  | invalidNationalId
  | fieldNotValidForCustomerType
  | fieldRequiredForCustomerType
  | duplicateTaxNumber
  | duplicateNationalId
  deriving DecidableEq

inductive Field
  | type
  | legalName
  | taxOffice
  | taxNumber
  | nationalId
  deriving DecidableEq

structure Customer where
  company : Nat
  type : CustomerType
  legalName : String
  legalNameNormalized : String
  taxOffice : String
  taxNumber : String
  nationalId : String
  nationalIdFingerprint : String
  isDeleted : Bool
  deriving DecidableEq

/-- What a body sets. -/
structure Attrs where
  type : Option CustomerType := none
  legalName : Option String := none
  taxOffice : Option String := none
  taxNumber : Option String := none
  nationalId : Option String := none

inductive Refusal
  | fields (errors : List (Field × ErrorCode))
  | conflict (code : ErrorCode)
  deriving DecidableEq

/-- What the code takes from elsewhere: Unicode, and the keyed digest. -/
structure Functions where
  unicode : Address.Unicode
  digest : String -> String
  /-- A digest in hexadecimal is never empty. -/
  digest_ne : ∀ value, digest value ≠ ""

section Code

variable (fns : Functions)

/-- `core.crypto.fingerprint` -/
def fingerprint (value : String) : String := if value = "" then "" else fns.digest value

/-! ## Columns -/

/-- The derived columns, as `save` fills them in. -/
def Customer.derived (row : Customer) : Customer :=
  { row with
    legalNameNormalized := Address.normalize fns.unicode row.legalName
    nationalIdFingerprint := fingerprint fns row.nationalId }

/-- The columns a body sets, over the ones of the record. -/
def Attrs.onto (attrs : Attrs) (row : Customer) : Customer :=
  { row with
    type := attrs.type.getD row.type
    legalName := attrs.legalName.getD row.legalName
    taxOffice := attrs.taxOffice.getD row.taxOffice
    taxNumber := attrs.taxNumber.getD row.taxNumber
    nationalId := attrs.nationalId.getD row.nationalId }

/-- A record of which a body says everything. -/
def blankRecord (company : Nat) (type : CustomerType) : Customer where
  company := company
  type := type
  legalName := ""
  legalNameNormalized := ""
  taxOffice := ""
  taxNumber := ""
  nationalId := ""
  nationalIdFingerprint := ""
  isDeleted := false

/-- `uq_customer_tax_number_active` -/
def taxKey (row : Customer) : Option (Nat × String) :=
  if row.isDeleted || decide (row.taxNumber = "") then none else some (row.company, row.taxNumber)

/-- `uq_customer_national_id_active` -/
def nationalKey (row : Customer) : Option (Nat × String) :=
  if row.isDeleted || decide (row.nationalIdFingerprint = "") then none
  else some (row.company, row.nationalIdFingerprint)

/-! ## Checks -/

/-- `validate_tax_number(value) if value else value` -/
def refused (check : String -> Except Validators.ErrorCode String) (value : Option String) : Bool :=
  match value with
  | some text => decide (text ≠ "") && !(check text).isOk
  | none => false

/-- The fields, each by itself. -/
def fieldErrors (creating : Bool) (attrs : Attrs) : List (Field × ErrorCode) :=
  (if creating && attrs.type.isNone then [(.type, .required)] else []) ++
  (if creating && attrs.legalName.isNone then [(.legalName, .required)] else []) ++
  (if attrs.legalName = some "" then [(.legalName, .blank)] else []) ++
  (if refused Validators.validateTaxNumber attrs.taxNumber then [(.taxNumber, .invalidTaxNumber)] else []) ++
  (if refused Validators.validateNationalId attrs.nationalId then [(.nationalId, .invalidNationalId)] else [])

/-- `_must_be_present` of the national number. -/
def mustBePresent (record : Option Customer) (attrs : Attrs) : Bool :=
  match record with
  | none => true
  | some record => attrs.nationalId.isSome || attrs.type.any (fun type => decide (type ≠ record.type))

/-- `_check_type_rules`, of the record as the request would leave it. -/
def typeErrors (record : Option Customer) (attrs : Attrs) (effective : Customer) : List (Field × ErrorCode) :=
  match effective.type with
  | .individual =>
      (if effective.taxNumber ≠ "" then [(.taxNumber, .fieldNotValidForCustomerType)] else []) ++
      (if effective.taxOffice ≠ "" then [(.taxOffice, .fieldNotValidForCustomerType)] else []) ++
      (if mustBePresent record attrs && decide (effective.nationalId = "") then
        [(.nationalId, .fieldRequiredForCustomerType)] else [])
  | _ => if effective.nationalId ≠ "" then [(.nationalId, .fieldNotValidForCustomerType)] else []

/-- `Customer.objects`: the company's rows that are not deleted. -/
def visible (company : Nat) (row : Customer) : Bool := decide (row.company = company) && !row.isDeleted

/-- `_refuse_if_taken`: another record of the company has it. -/
def taken (rows : Rows Customer) (company : Nat) (own : Option Nat) (has : Customer -> Bool) : Bool :=
  rows.any (fun r => visible company r.2 && has r.2 && decide (some r.1 ≠ own))

/-- `_check_identifiers_are_free` -/
def identifierError (rows : Rows Customer) (company : Nat) (own : Option Nat) (effective : Customer) :
    Option ErrorCode :=
  if effective.taxNumber ≠ "" && taken rows company own (fun row => decide (row.taxNumber = effective.taxNumber)) then
    some .duplicateTaxNumber
  else if effective.nationalId ≠ "" && taken rows company own
      (fun row => decide (row.nationalIdFingerprint = fingerprint fns effective.nationalId)) then
    some .duplicateNationalId
  else none

/-- `is_valid`, and the row that is then to be written. -/
def validate (rows : Rows Customer) (company : Nat) (record : Option (Nat × Customer)) (attrs : Attrs) :
    Except Refusal Customer :=
  let creating := record.isNone
  if fieldErrors creating attrs ≠ [] then .error (.fields (fieldErrors creating attrs))
  else
    let effective := attrs.onto ((record.map Prod.snd).getD (blankRecord company (attrs.type.getD .individual)))
    let errors := typeErrors (record.map Prod.snd) attrs effective
    if errors ≠ [] then .error (.fields errors)
    else match identifierError fns rows company (record.map Prod.fst) effective with
      | some code => .error (.conflict code)
      | none => .ok (effective.derived fns)

/-! ## The register -/

/-- A request that was valid, with the row it is to write. -/
inductive Pending
  | insert (row : Customer)
  | update (id : Nat) (row : Customer)
  deriving DecidableEq

structure Register where
  rows : Rows Customer
  next : Nat
  pending : List Pending

def Register.empty : Register := ⟨[], 1, []⟩

inductive Event
  | create (company : Nat) (attrs : Attrs)
  | update (company id : Nat) (attrs : Attrs)
  /-- The `INSERT` or `UPDATE` of one of the requests that were valid. -/
  | write (index : Nat)
  | destroy (company id : Nat) (inUse : Bool)

/-- `get_object` -/
def Register.find (register : Register) (company id : Nat) : Option Customer :=
  (register.rows.get? id).filter (visible company)

/-- The constraints, asked of one row. -/
def accepted (rows : Rows Customer) (id : Nat) (row : Customer) : Bool :=
  !Rows.clashes taxKey rows id row && !Rows.clashes nationalKey rows id row

/-- What the request comes to.  No customer leaves its table, so an update inserts none. -/
def Register.perform (register : Register) : Pending -> Register
  | .insert row =>
      if accepted register.rows register.next row then
        { register with rows := register.rows.insert register.next row, next := register.next + 1 }
      else register
  | .update id row =>
      match Saves.write (visible row.company) .whole (register.rows.get? id) with
      | .error _ => register
      | .ok _ =>
          if accepted register.rows id row then { register with rows := register.rows.update id (fun _ => row) }
          else register

def Register.await (register : Register) (pending : Pending) : Register :=
  { register with pending := register.pending ++ [pending] }

def Customer.deleted (row : Customer) : Customer := { row with isDeleted := true }

/-- `delete`, whose `update_fields` name none of the columns that are derived. -/
def Register.delete (register : Register) (id : Nat) : Register :=
  { register with rows := register.rows.update id Customer.deleted }

def step (register : Register) : Event -> Register
  | .create company attrs =>
      match validate fns register.rows company none attrs with
      | .ok row => register.await (.insert row)
      | .error _ => register
  | .update company id attrs =>
      match register.find company id with
      | none => register
      | some record =>
          match validate fns register.rows company (some (id, record)) attrs with
          | .ok row => register.await (.update id row)
          | .error _ => register
  | .write index =>
      match register.pending[index]? with
      | none => register
      | some pending => ({ register with pending := register.pending.eraseIdx index }).perform pending
  | .destroy company id inUse =>
      if (register.find company id).isSome && !inUse then register.delete id else register

def reached (events : List Event) : Register := events.foldl (step fns) .empty

end Code

end Customers
end Shiftlush
