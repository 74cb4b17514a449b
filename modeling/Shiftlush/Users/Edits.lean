import Shiftlush.Failing
import Shiftlush.Users.Owners

namespace Shiftlush
namespace Users
namespace Edits

open Sessions (Role)
open Failing (Failures Prog point query change raise)

/-!
# An edit that stops half-way

`UserViewSet.update` and `change_role` run outside any transaction.  What a statement
writes is committed with it, and the next one may never come: it is refused, it fails,
or the process ends.
-/

/-- A row of `user_customer`. -/
structure Assignment where
  company : Nat
  user : Nat
  customer : Nat
  deletedAt : Option Nat
  isDeleted : Bool
  deriving DecidableEq

/-- The tables, with the column `updated_at` of the users beside their rows. -/
@[ext]
structure Office where
  users : Rows User
  updatedAt : Nat -> Nat
  assignments : Rows Assignment

/-- A request to `UserViewSet.update`. -/
structure Edit where
  requester : Nat
  /-- The firm the token names. -/
  company : Option Nat
  user : Nat
  /-- What the form makes of the body, if it is valid. -/
  form : Option (UserChanges × Option Role)
  deriving DecidableEq

/-- Before which statement. -/
inductive Point where
  | authenticating
  | finding
  | saving
  | checking
  | moving
  | unassigning
  | answering
  deriving DecidableEq

inductive Raised where
  | refused (failure : Failure)
  /-- `ValidationError` -/
  | invalid
  /-- `TenantContextError` -/
  | noCompany
  | interrupted
  deriving DecidableEq

/-! ## Statements -/

namespace Office

/-- An `UPDATE` of a user, and of its `updated_at`. -/
def write (office : Office) (now id : Nat) (f : User -> User) : Office :=
  { office with
    users := office.users.update id f
    updatedAt := Function.update office.updatedAt id now }

/-- `user.customer_assignments.all().delete()`, of the rows that the firm of the request sees. -/
def unassign (office : Office) (now : Nat) (company : Option Nat) (id : Nat) : Office :=
  { office with
    assignments := office.assignments.updateWhere
      (fun _ row => decide (row.user = id ∧ some row.company = company ∧ row.isDeleted = false))
      (fun row => { row with isDeleted := true, deletedAt := some now }) }

/-- An insert of `set_assigned_customers`. -/
def assign (office : Office) (key id customer : Nat) : Office :=
  match (office.users.get? id).bind User.company with
  | none => office
  | some company =>
      { office with
        assignments := office.assignments.insert key
          { company := company, user := id, customer := customer, deletedAt := none, isDeleted := false } }

end Office

/-- `MATRIX`: who may write a `user`. -/
def mayWrite (role : Role) : Bool := decide (role = .owner ∨ role = .admin)

def authenticate (id : Nat) : Prog Point Raised Office User := do
  point .authenticating
  match ← query (fun office => office.users.get? id) with
  | none => raise (.refused .authenticationFailed)
  | some row =>
      if !row.isActive then raise (.refused .authenticationFailed)
      else if !mayWrite row.role then raise (.refused .permissionDenied)
      else return row

def getObject (company : Option Nat) (id : Nat) : Prog Point Raised Office User := do
  point .finding
  match company with
  | none => raise .noCompany
  | some company =>
      match ← query (fun office => office.users.get? id) with
      | none => raise (.refused .notFound)
      | some user => if user.company = some company then return user else raise (.refused .notFound)

variable (clock : Point -> Nat)

def changeRole (company : Option Nat) (id : Nat) (user : User) (role : Role) : Prog Point Raised Office Unit := do
  point .checking
  let last ← query (fun office => isLastActiveOwner office.users id user)
  if role ≠ user.role ∧ last = true then raise (.refused .lastOwnerCannotBeDeactivated)
  else
    point .moving
    change (fun office => office.write (clock .moving) id (fun row => { row with role := role }))
    if role ≠ .technician then
      point .unassigning
      change (fun office => office.unassign (clock .unassigning) company id)

/-- `UserViewSet.update` -/
def update (edit : Edit) : Prog Point Raised Office User := do
  let requester ← authenticate edit.requester
  let user ← getObject edit.company edit.user
  match edit.form with
  | none => raise .invalid
  | some (changes, role) =>
      if role = some .owner ∧ requester.role ≠ .owner then raise (.refused .permissionDenied)
      else
        let user := changes.apply user
        point .saving
        change (fun office => office.write (clock .saving) edit.user (fun _ => user))
        match role with
        | none => pure ()
        | some role => changeRole clock edit.company edit.user user role
        point .answering
        return { user with role := role.getD user.role }

end Edits
end Users
end Shiftlush
