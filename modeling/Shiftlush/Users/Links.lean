import Shiftlush.Rows
import Shiftlush.Transitions

namespace Shiftlush
namespace Links

open Transitions (run everyStep)

/-!
# Mailed links

The one-time tokens of `apps.users.services` and `apps.portal.services`, and the
staff invitations, statement by statement.  The requests for a reset or a
verification run outside a transaction.  The others run in one, and write only
at its end: from the first row such a transaction writes to its commit nobody
else writes that row, and nobody sees what it wrote, so that end is one step.

What refuses a request without regard to links is left out; a request may be
given up at any statement.
-/

/-- `TokenPurpose` -/
inductive Purpose where
  | passwordReset
  | emailVerification
  | portalInvitation
  | portalPasswordReset
  deriving DecidableEq

/-- In seconds. -/
def Purpose.lifetime : Purpose -> Nat
  | .passwordReset => 3600
  | .emailVerification => 24 * 3600
  | .portalInvitation => 72 * 3600
  | .portalPasswordReset => 3600

/-- The lifetime of a staff invitation. -/
def invitationLifetime : Nat := 72 * 3600

/-- The key of a row stands for the token, whose hash is unique.  The purpose
says of which app the account is. -/
structure OneTimeToken where
  account : Nat
  purpose : Purpose
  expiresAt : Nat
  usedAt : Option Nat
  deriving DecidableEq

structure Invitation where
  company : Nat
  email : String
  /-- Stands for `token_hash`. -/
  token : Nat
  expiresAt : Nat
  acceptedAt : Option Nat
  isDeleted : Bool
  deriving DecidableEq

structure PortalAccount where
  contact : Nat
  isActive : Bool
  deriving DecidableEq

inductive Failure where
  | tokenInvalid
  | tokenExpired
  | portalAccountAlreadyActive
  | emailAlreadyRegistered
  | invitationAlreadyPending
  | notFound
  | integrityError
  deriving DecidableEq

inductive Request where
  | requestPasswordReset (user : Nat)
  | requestEmailVerification (user : Nat)
  | requestPortalPasswordReset (account : Nat)
  | confirmPasswordReset (token : Nat)
  | confirmEmailVerification (token : Nat)
  | confirmPortalPasswordReset (token : Nat)
  /-- `invite` of the portal. -/
  | invitePortal (contact : Nat)
  /-- `accept` of the portal. -/
  | acceptPortal (token : Nat)
  | createInvitation (company : Nat) (email : String)
  | resendInvitation (id : Nat)
  | acceptInvitation (token : Nat)
  deriving DecidableEq

/-- What a request has presented and used up. -/
inductive Credential where
  | link (token : Nat)
  | invitation (token : Nat)
  deriving DecidableEq

inductive Stage where
  | begun
  /-- The outstanding tokens have been retired. -/
  | inserting (account : Nat) (purpose : Purpose)
  /-- With the account of the contact as it was read. -/
  | inviting (contact : Nat) (account : Option Nat)
  /-- The token has been read, unused and unexpired. -/
  | consuming (token : Nat)
  | checkingPending (company : Nat) (email : String)
  | creating (company : Nat) (email : String)
  | resending (id : Nat)
  | joining (id : Nat) (invitation : Invitation)
  | consumed (credential : Credential)
  | done
  | refused (failure : Failure)
  | lost
  deriving DecidableEq

/-! ## Tables -/

structure Tables where
  clock : Nat
  links : Rows OneTimeToken
  nextLink : Nat
  portalAccounts : Rows PortalAccount
  nextPortalAccount : Nat
  invitations : Rows Invitation
  nextInvitation : Nat
  nextToken : Nat
  /-- The addresses of the users. -/
  emails : List String

namespace OneTimeToken

/-- Unused, and of an account and a purpose. -/
def isOutstanding (link : OneTimeToken) (account : Nat) (purpose : Purpose) : Bool :=
  decide (link.account = account ∧ link.purpose = purpose) && link.usedAt.isNone

def isUsable (link : OneTimeToken) (now account : Nat) (purpose : Purpose) : Bool :=
  link.isOutstanding account purpose && decide (now < link.expiresAt)

end OneTimeToken

namespace Invitation

/-- Neither accepted nor expired, nor withdrawn. -/
def isLive (invitation : Invitation) (now company : Nat) (email : String) : Bool :=
  decide (invitation.company = company ∧ invitation.email = email) && invitation.acceptedAt.isNone &&
    !invitation.isDeleted && decide (now < invitation.expiresAt)

end Invitation

namespace Tables

variable (t : Tables)

/-- The first statement of `_issue_one_time_token`. -/
def retire (account : Nat) (purpose : Purpose) : Tables :=
  { t with
    links := t.links.updateWhere (fun _ link => link.isOutstanding account purpose)
      (fun link => { link with usedAt := some t.clock }) }

/-- The second. -/
def issue (account : Nat) (purpose : Purpose) : Tables :=
  { t with
    links := t.links.insert t.nextLink ⟨account, purpose, t.clock + purpose.lifetime, none⟩
    nextLink := t.nextLink + 1 }

/-- The lookup of `_consume_one_time_token`. -/
def consume (token : Nat) (purpose : Purpose) : Stage :=
  match (t.links.get? token).filter (fun record => decide (record.purpose = purpose)) with
  | none => .refused .tokenInvalid
  | some record =>
      if record.usedAt.isSome then .refused .tokenInvalid
      else if record.expiresAt ≤ t.clock then .refused .tokenExpired
      else .consuming token

/-- `record.save(update_fields=["used_at"])` -/
def use (token : Nat) : Tables :=
  { t with links := t.links.update token (fun record => { record with usedAt := some t.clock }) }

def accountOf (contact : Nat) : Option (Nat × PortalAccount) :=
  t.portalAccounts.find? (fun r => decide (r.2.contact = contact))

def openAccount (contact : Nat) : Tables :=
  { t with
    portalAccounts := t.portalAccounts.insert t.nextPortalAccount ⟨contact, false⟩
    nextPortalAccount := t.nextPortalAccount + 1 }

/-- From the account row to the commit of `invite`: one account for a contact. -/
def invite (contact : Nat) : Option Nat -> Tables × Stage
  | some id => ((t.retire id .portalInvitation).issue id .portalInvitation, .done)
  | none =>
      if (t.accountOf contact).isSome then (t, .refused .integrityError)
      else
        (((t.openAccount contact).retire t.nextPortalAccount .portalInvitation).issue t.nextPortalAccount
          .portalInvitation, .done)

/-- The account an accepted invitation opens. -/
def activate (token : Nat) : Tables :=
  match t.links.get? token with
  | none => t
  | some record =>
      { t with
        portalAccounts := t.portalAccounts.update record.account (fun account => { account with isActive := true }) }

/-- The second check of `create_invitation`. -/
def isPending (company : Nat) (email : String) : Bool :=
  t.invitations.any (fun r => r.2.isLive t.clock company email)

def create (company : Nat) (email : String) : Tables :=
  { t with
    invitations := t.invitations.insert t.nextInvitation
      ⟨company, email, t.nextToken, t.clock + invitationLifetime, none, false⟩
    nextInvitation := t.nextInvitation + 1
    nextToken := t.nextToken + 1 }

/-- `resend_invitation` -/
def resend (id : Nat) : Tables :=
  { t with
    invitations := t.invitations.update id (fun row =>
      { row with token := t.nextToken, expiresAt := t.clock + invitationLifetime })
    nextToken := t.nextToken + 1 }

def withdraw (id : Nat) : Tables :=
  { t with invitations := t.invitations.update id (fun row => { row with isDeleted := true }) }

/-- The lookup of `accept_invitation`. -/
def lookUp (token : Nat) : Stage :=
  match t.invitations.find? (fun r => decide (r.2.token = token) && !r.2.isDeleted) with
  | none => .refused .tokenInvalid
  | some (id, invitation) =>
      if invitation.acceptedAt.isSome then .refused .tokenInvalid
      else if invitation.expiresAt ≤ t.clock then .refused .tokenExpired
      else .joining id invitation

def joined (id : Nat) (invitation : Invitation) : Tables :=
  { t with
    emails := invitation.email :: t.emails
    invitations := t.invitations.update id (fun row => { row with acceptedAt := some t.clock }) }

/-- `create_user`, whose address is unique, and the end of `accept_invitation`. -/
def join (id : Nat) (invitation : Invitation) : Tables × Stage :=
  if invitation.email ∈ t.emails then (t, .refused .integrityError)
  else (t.joined id invitation, .consumed (.invitation invitation.token))

/-! ## Statements -/

/-- The first statement of a request. -/
def start : Request -> Tables × Stage
  | .requestPasswordReset user => (t.retire user .passwordReset, .inserting user .passwordReset)
  | .requestEmailVerification user => (t.retire user .emailVerification, .inserting user .emailVerification)
  | .requestPortalPasswordReset account =>
      (t.retire account .portalPasswordReset, .inserting account .portalPasswordReset)
  | .confirmPasswordReset token => (t, t.consume token .passwordReset)
  | .confirmEmailVerification token => (t, t.consume token .emailVerification)
  | .confirmPortalPasswordReset token => (t, t.consume token .portalPasswordReset)
  | .acceptPortal token => (t, t.consume token .portalInvitation)
  | .invitePortal contact =>
      match t.accountOf contact with
      | some (id, account) =>
          if account.isActive then (t, .refused .portalAccountAlreadyActive) else (t, .inviting contact (some id))
      | none => (t, .inviting contact none)
  | .createInvitation company email =>
      if email.toLower ∈ t.emails then (t, .refused .emailAlreadyRegistered)
      else (t, .checkingPending company email.toLower)
  | .resendInvitation id =>
      match (t.invitations.get? id).filter (fun row => !row.isDeleted) with
      | none => (t, .refused .notFound)
      | some row => if row.acceptedAt.isSome then (t, .refused .tokenInvalid) else (t, .resending id)
  | .acceptInvitation token => (t, t.lookUp token)

def statement (request : Request) : Stage -> Tables × Stage
  | .begun => t.start request
  | .inserting account purpose => (t.issue account purpose, .done)
  | .inviting contact account => t.invite contact account
  | .consuming token =>
      match request with
      | .acceptPortal _ => ((t.use token).activate token, .consumed (.link token))
      | _ => (t.use token, .consumed (.link token))
  | .checkingPending company email =>
      if t.isPending company email then (t, .refused .invitationAlreadyPending) else (t, .creating company email)
  | .creating company email => (t.create company email, .done)
  | .resending id => (t.resend id, .done)
  | .joining id invitation => t.join id invitation
  | stage => (t, stage)

end Tables

/-! ## Requests under way -/

structure Thread where
  request : Request
  stage : Stage
  deriving DecidableEq

structure Machine where
  tables : Tables
  threads : List Thread

inductive Event where
  | arrive (request : Request)
  | act (thread : Nat)
  /-- Refused by something else, or lost. -/
  | giveUp (thread : Nat)
  | tick (time : Nat)
  /-- An account is opened without an invitation. -/
  | register (email : String)
  | withdraw (invitation : Nat)
  /-- A portal account is closed. -/
  | deactivatePortal (account : Nat)

namespace Machine

def setStage (m : Machine) (i : Nat) (stage : Stage) : Machine :=
  match m.threads[i]? with
  | some thread => { m with threads := m.threads.set i { thread with stage := stage } }
  | none => m

def act (m : Machine) (i : Nat) : Machine :=
  match m.threads[i]? with
  | none => m
  | some thread =>
      let result := m.tables.statement thread.request thread.stage
      { m with tables := result.1 }.setStage i result.2

/-- A request that has been answered stays so. -/
def giveUp (m : Machine) (i : Nat) : Machine :=
  match m.threads[i]? with
  | none => m
  | some thread =>
      match thread.stage with
      | .consumed _ => m
      | _ => m.setStage i .lost

def step (m : Machine) : Event -> Machine
  | .arrive request => { m with threads := m.threads ++ [⟨request, .begun⟩] }
  | .act i => m.act i
  | .giveUp i => m.giveUp i
  | .tick time => { m with tables := { m.tables with clock := max m.tables.clock time } }
  | .register email => { m with tables := { m.tables with emails := email :: m.tables.emails } }
  | .withdraw id => { m with tables := m.tables.withdraw id }
  | .deactivatePortal id =>
      { m with tables := { m.tables with
        portalAccounts := m.tables.portalAccounts.update id (fun account => { account with isActive := false }) } }

end Machine

/-! ## The law -/

namespace Tables

/-- At most one usable link for an account and a purpose. -/
def OneUsable (t : Tables) : Prop :=
  ∀ r ∈ t.links, ∀ r' ∈ t.links, ∀ account purpose, r.2.isUsable t.clock account purpose = true ->
    r'.2.isUsable t.clock account purpose = true -> r.1 = r'.1

/-- At most one live invitation for an address and a firm. -/
def OneLive (t : Tables) : Prop :=
  ∀ r ∈ t.invitations, ∀ r' ∈ t.invitations, ∀ company email, r.2.isLive t.clock company email = true ->
    r'.2.isLive t.clock company email = true -> r.1 = r'.1

end Tables

/-- Another invitation of the same firm and address is live. -/
def Tables.rivals (t : Tables) (id : Nat) (row : Invitation) : Bool :=
  t.invitations.any (fun r => decide (r.1 ≠ id) && r.2.isLive t.clock row.company row.email)

namespace Machine

/-- No two requests have consumed the same link. -/
def ConsumedOnce (m : Machine) : Prop :=
  ∀ (i j : Nat) (a b : Thread) (credential : Credential), m.threads[i]? = some a -> m.threads[j]? = some b ->
    a.stage = .consumed credential -> b.stage = .consumed credential -> i = j

structure OneTime (m : Machine) : Prop where
  consumed : m.ConsumedOnce
  usable : m.tables.OneUsable
  live : m.tables.OneLive

/-- What the checks of a statement found earlier is still so when it writes. -/
def keepsOneTime (m : Machine) : Event -> Bool
  | .act i =>
      match (m.threads[i]?).map Thread.stage with
      | some (.consuming token) => !m.threads.any (fun other => decide (other.stage = .consumed (.link token)))
      | some (.inserting account purpose) =>
          !m.tables.links.any (fun r => r.2.isUsable m.tables.clock account purpose)
      | some (.creating company email) => !m.tables.isPending company email
      | some (.resending id) =>
          match m.tables.invitations.get? id with
          | none => true
          | some row => row.acceptedAt.isSome || row.isDeleted || !m.tables.rivals id row
      | _ => true
  | _ => true

end Machine
end Links
end Shiftlush
