import Shiftlush.Calendar
import Shiftlush.Rows
import Shiftlush.Sessions.Services
import Shiftlush.Transitions

namespace Shiftlush
namespace Users

open Sessions (Role)
open Transitions (run everyStep)

/-!
# Colleagues

`apps.users`: the edit of a colleague, the change of a role, the deactivation
and the accepted invitation.  The first three run outside any transaction, so
each statement is committed by itself, and other requests run between two of
them.  The rows an accepted invitation writes are seen at its commit, which is
one step with its insert.
-/

structure User where
  company : Option Nat
  email : String
  firstName : String
  lastName : String
  phone : String
  role : Role
  isActive : Bool
  certificateNumber : String
  certificateValidUntil : Option Calendar.Date
  deriving DecidableEq

structure Invitation where
  company : Nat
  email : String
  firstName : String
  lastName : String
  role : Role
  token : String
  expiresAt : Nat
  acceptedAt : Option Nat
  deriving DecidableEq

/-- The validated fields of `UserUpdateSerializer`, but for the role. -/
structure UserChanges where
  firstName : Option String
  lastName : Option String
  phone : Option String
  certificateNumber : Option String
  certificateValidUntil : Option (Option Calendar.Date)
  deriving DecidableEq

def UserChanges.apply (changes : UserChanges) (user : User) : User :=
  { user with
    firstName := changes.firstName.getD user.firstName
    lastName := changes.lastName.getD user.lastName
    phone := changes.phone.getD user.phone
    certificateNumber := changes.certificateNumber.getD user.certificateNumber
    certificateValidUntil := changes.certificateValidUntil.getD user.certificateValidUntil }

inductive Failure where
  | authenticationFailed
  | permissionDenied
  | notFound
  | cannotDeactivateSelf
  | lastOwnerCannotBeDeactivated
  | tokenInvalid
  | tokenExpired
  /-- The unique e-mail of a user. -/
  | integrityError
  deriving DecidableEq

inductive Request where
  /-- `UserViewSet.update` -/
  | update (requester user : Nat) (changes : UserChanges) (role : Option Role)
  /-- `UserViewSet.deactivate` -/
  | deactivate (requester user : Nat)
  | accept (token : String)
  deriving DecidableEq

/-- Where a request is, with what it has in memory. -/
inductive Stage where
  | begun
  /-- The row of the requester has been read. -/
  | authenticated (requester : User)
  /-- Before `user.save()`, of a whole row. -/
  | saving (id : Nat) (user : User) (role : Option Role)
  /-- In `change_role`, before `_is_last_active_owner` looks for others. -/
  | checking (id : Nat) (user : User) (role : Role)
  | moving (id : Nat) (role : Role)
  /-- In `deactivate_user`, before the count of the others. -/
  | counting (id : Nat) (user : User)
  | deactivating (id : Nat)
  | joining (id : Nat) (invitation : Invitation) (now : Nat)
  | answered
  | refused (failure : Failure)
  | lost
  deriving DecidableEq

/-! ## Owners -/

namespace User

/-- An active user with the owner role. -/
def owns (user : User) (firm : Option Nat) : Bool :=
  decide (user.company = firm ∧ user.role = .owner ∧ user.isActive = true)

end User

/-- The firm has an active owner. -/
def hasOwner (users : Rows User) (firm : Option Nat) : Bool := users.any (fun r => r.2.owns firm)

/-- The active owners of a firm but for one user. -/
def otherOwners (users : Rows User) (firm : Option Nat) (id : Nat) : Nat :=
  users.countP (fun r => decide (r.1 ≠ id) && r.2.owns firm)

/-- `_is_last_active_owner` -/
def isLastActiveOwner (users : Rows User) (id : Nat) (user : User) : Bool :=
  decide (user.role = .owner) && user.isActive && user.company.isSome &&
    decide (otherOwners users user.company id = 0)

/-! ## Statements -/

/-- `MATRIX`: `user` and `user_deactivation`. -/
def Request.permits : Request -> Role -> Bool
  | .update _ _ _ _, role => decide (role = .owner ∨ role = .admin)
  | .deactivate _ _, role => decide (role = .owner)
  | .accept _, _ => true

/-- The user row an `UPDATE` writes, and what it makes of it. -/
def Stage.write : Stage -> Option (Nat × (User -> User))
  | .saving id user _ => some (id, fun _ => user)
  | .moving id role => some (id, fun row => { row with role := role })
  | .deactivating id => some (id, fun row => { row with isActive := false })
  | _ => none

structure Thread where
  request : Request
  stage : Stage
  deriving DecidableEq

structure Machine where
  users : Rows User
  nextId : Nat
  invitations : Rows Invitation
  threads : List Thread

inductive Event where
  | arrive (request : Request)
  | act (thread now : Nat)
  | lose (thread : Nat)
  /-- An invitation is issued or issued again, by whatever rules. -/
  | invite (id : Nat) (invitation : Invitation)

namespace Machine

/-- The row behind the token of the request, which must be of an active user. -/
def authenticate (m : Machine) (request : Request) (requester : Nat) : Stage :=
  match m.users.get? requester with
  | none => .refused .authenticationFailed
  | some row =>
      if !row.isActive then .refused .authenticationFailed
      else if !request.permits row.role then .refused .permissionDenied
      else .authenticated row

/-- The first lines of `accept_invitation`. -/
def lookUp (m : Machine) (token : String) (now : Nat) : Stage :=
  match m.invitations.find? (fun r => decide (r.2.token = token)) with
  | none => .refused .tokenInvalid
  | some (id, invitation) =>
      if invitation.acceptedAt.isSome then .refused .tokenInvalid
      else if invitation.expiresAt ≤ now then .refused .tokenExpired
      else .joining id invitation now

/-- `get_object`, of the firm of the requester. -/
def object (m : Machine) (requester : User) (id : Nat) : Option User :=
  (m.users.get? id).filter (fun user => decide (user.company = requester.company) && user.company.isSome)

/-- What an edit does with the row it has read. -/
def edit (requester : User) (id : Nat) (user : User) (changes : UserChanges) (role : Option Role) : Stage :=
  if role = some .owner ∧ requester.role ≠ .owner then .refused .permissionDenied
  else .saving id (changes.apply user) role

/-- The start of `change_role`. -/
def changeRole (id : Nat) (user : User) (role : Role) : Stage :=
  if role ≠ user.role ∧ user.role = .owner ∧ user.isActive = true ∧ user.company.isSome = true then
    .checking id user role
  else .moving id role

/-- The start of `deactivate_user`. -/
def deactivateUser (id : Nat) (user : User) : Stage :=
  if user.role = .owner then .counting id user else .deactivating id

/-- The stage after the next statement of a request. -/
def next (m : Machine) (now : Nat) : Request -> Stage -> Stage
  | .update requester user changes role, .begun => m.authenticate (.update requester user changes role) requester
  | .deactivate requester user, .begun => m.authenticate (.deactivate requester user) requester
  | .accept token, .begun => m.lookUp token now
  | .update _ id changes role, .authenticated requester =>
      match m.object requester id with
      | none => .refused .notFound
      | some user => edit requester id user changes role
  | .deactivate requesterId id, .authenticated requester =>
      match m.object requester id with
      | none => .refused .notFound
      | some user => if id = requesterId then .refused .cannotDeactivateSelf else deactivateUser id user
  | _, .saving id user role =>
      match role with
      | none => .answered
      | some role => changeRole id user role
  | _, .checking id user role =>
      if isLastActiveOwner m.users id user then .refused .lastOwnerCannotBeDeactivated else .moving id role
  | _, .moving _ _ => .answered
  | _, .counting id user =>
      if otherOwners m.users user.company id = 0 then .refused .lastOwnerCannotBeDeactivated
      else .deactivating id
  | _, .deactivating _ => .answered
  | _, stage => stage

/-- `create_user` and the end of `accept_invitation`. -/
def join (m : Machine) (id : Nat) (invitation : Invitation) (now : Nat) : Except Failure Machine :=
  if m.users.any (fun r => decide (r.2.email = invitation.email.toLower)) then .error .integrityError
  else .ok { m with
    users := m.users.insert m.nextId {
      company := some invitation.company
      email := invitation.email.toLower
      firstName := invitation.firstName
      lastName := invitation.lastName
      phone := ""
      role := invitation.role
      isActive := true
      certificateNumber := ""
      certificateValidUntil := none }
    nextId := m.nextId + 1
    invitations := m.invitations.update id (fun row => { row with acceptedAt := some now }) }

/-- What an `UPDATE` leaves of the users. -/
def written (m : Machine) (stage : Stage) : Rows User :=
  match stage.write with
  | some (id, f) => m.users.update id f
  | none => m.users

def setStage (m : Machine) (i : Nat) (stage : Stage) : Machine :=
  match m.threads[i]? with
  | some thread => { m with threads := m.threads.set i { thread with stage := stage } }
  | none => m

/-- The next statement of a request, with its commit. -/
def act (m : Machine) (i now : Nat) : Machine :=
  match m.threads[i]? with
  | none => m
  | some thread =>
      match thread.stage with
      | .joining id invitation now =>
          match m.join id invitation now with
          | .error failure => m.setStage i (.refused failure)
          | .ok m' => m'.setStage i .answered
      | stage => { m with users := m.written stage }.setStage i (m.next now thread.request stage)

def step (m : Machine) : Event -> Machine
  | .arrive request => { m with threads := m.threads ++ [⟨request, .begun⟩] }
  | .act i now => m.act i now
  | .lose i => m.setStage i .lost
  | .invite id invitation =>
      if (m.invitations.get? id).isSome then
        { m with invitations := m.invitations.update id (fun _ => invitation) }
      else { m with invitations := m.invitations.insert id invitation }

end Machine
end Users
end Shiftlush
