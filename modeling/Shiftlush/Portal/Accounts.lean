import Shiftlush.Rows
import Shiftlush.Text
import Shiftlush.Transitions

namespace Shiftlush
namespace Portal

open Transitions (run everyStep)

/-!
# Portal accounts

`apps.portal.services`, request by request: the invitation and its acceptance,
the sign-in and the sessions, the password reset, and the two ways the firm
closes an account.  A token that is mailed or kept in a cookie is named by the
key of its row, since its hash is unique.

The firm a row belongs to is left out: every query goes by a contact, an
account or an address.
-/

structure Contact where
  customer : Nat
  email : String
  isDeleted : Bool
  deriving DecidableEq

/-- `PortalAccount` -/
structure Account where
  customer : Nat
  contact : Nat
  email : String
  /-- Empty until the invitation is accepted. -/
  password : String
  isActive : Bool
  invitedAt : Nat
  acceptedAt : Option Nat
  deactivatedAt : Option Nat
  isDeleted : Bool
  deriving DecidableEq

/-- The purposes of `TokenPurpose` that portal links have. -/
inductive Purpose where
  | portalInvitation
  | portalPasswordReset
  deriving DecidableEq

structure OneTimeToken where
  account : Nat
  purpose : Purpose
  expiresAt : Nat
  usedAt : Option Nat
  deriving DecidableEq

/-- `PortalRefreshSession`.  The access token issued with it names the account
and the time. -/
structure RefreshSession where
  account : Nat
  chainId : Nat
  signedInAt : Nat
  createdAt : Nat
  expiresAt : Nat
  revokedAt : Option Nat
  deriving DecidableEq

/-- In seconds. -/
def invitationLifetime : Nat := 72 * 3600
def passwordResetLifetime : Nat := 3600
def accessTokenLifetime : Nat := 15 * 60
def refreshTokenLifetime : Nat := 30 * 24 * 3600

inductive Failure where
  | contactNotOfCustomer
  | contactHasNoEmail
  | portalAccountAlreadyActive
  | portalEmailInUse
  | tokenInvalid
  | tokenExpired
  | accountInactive
  | invalidCredentials
  | notFound
  deriving DecidableEq

/-- A closing of an account, with the keys the next link and the next session
had then. -/
structure Closing where
  account : Nat
  links : Nat
  sessions : Nat
  deriving DecidableEq

structure State where
  contacts : Rows Contact
  accounts : Rows Account
  nextAccount : Nat
  links : Rows OneTimeToken
  nextLink : Nat
  sessions : Rows RefreshSession
  nextSession : Nat
  /-- Accounts the firm has closed and not invited since.  No request reads it. -/
  closed : List Closing

inductive Request where
  | invite (customer contact : Nat)
  | accept (token : Nat) (password : String)
  | signIn (email password : String)
  /-- The refresh cookie. -/
  | rotate (token : Nat)
  | signOut (token : Nat)
  /-- Any portal endpoint, with the access token issued with a session. -/
  | present (session : Nat)
  | requestPasswordReset (email : String)
  | confirmPasswordReset (token : Nat) (newPassword : String)
  | deactivate (account : Nat)
  /-- A contact is deleted, and `close_accounts_of` runs. -/
  | deleteContact (contact : Nat)
  | editContact (contact : Nat) (email : String)
  deriving DecidableEq

structure Event where
  request : Request
  now : Nat
  deriving DecidableEq

/-- What a request was let in by. -/
inductive Credential where
  | link (token : Nat)
  | session (token : Nat)
  | password
  deriving DecidableEq

inductive Reply where
  | refused (failure : Failure)
  | done
  | access (account : Nat) (credential : Credential)
  deriving DecidableEq

namespace Account

/-- `check_password` -/
def checkPassword (account : Account) (raw : String) : Bool :=
  !account.password.isEmpty && decide (account.password = raw)

/-- The order of `authenticate`: `-is_active`, `-accepted_at`, `id`. -/
def before (a b : Nat × Account) : Bool :=
  if a.2.isActive = b.2.isActive then
    decide (a.2.acceptedAt.getD 0 > b.2.acceptedAt.getD 0 ∨
      a.2.acceptedAt.getD 0 = b.2.acceptedAt.getD 0 ∧ a.1 < b.1)
  else a.2.isActive

end Account

namespace State

variable (s : State)

/-! ## Sessions -/

/-- `issue_tokens` -/
def issueTokens (account : Nat) (continues : Option RefreshSession) (now : Nat) : State :=
  { s with
    sessions := s.sessions.insert s.nextSession {
      account := account
      chainId := (continues.map RefreshSession.chainId).getD s.nextSession
      signedInAt := (continues.map RefreshSession.signedInAt).getD now
      createdAt := now
      expiresAt := now + refreshTokenLifetime
      revokedAt := none }
    nextSession := s.nextSession + 1 }

/-- `UPDATE … SET revoked_at = now WHERE … AND revoked_at IS NULL`. -/
def revoke (selects : Nat -> RefreshSession -> Bool) (now : Nat) : State :=
  { s with
    sessions := s.sessions.updateWhere (fun id row => selects id row && row.revokedAt.isNone)
      (fun row => { row with revokedAt := some now }) }

def revokeAllSessions (account now : Nat) : State :=
  s.revoke (fun _ row => decide (row.account = account)) now

/-- The account `authenticate` looks at. -/
def signInAccount (email : String) : Option (Nat × Account) :=
  (s.accounts.filter (fun r =>
    decide (r.2.email = email.toLower) && r.2.acceptedAt.isSome && !r.2.isDeleted)).foldl
      (fun best r =>
        match best with
        | none => some r
        | some b => if Account.before r b then some r else some b) none

/-- `PortalLoginView`: `authenticate` and `issue_tokens`. -/
def signIn (email password : String) (now : Nat) : State × Reply :=
  match s.signInAccount email with
  | none => (s, .refused .invalidCredentials)
  | some (id, account) =>
      if !account.checkPassword password then (s, .refused .invalidCredentials)
      else if !account.isActive then (s, .refused .accountInactive)
      else (s.issueTokens id none now, .access id .password)

/-- `rotate_refresh_token` -/
def rotate (token now : Nat) : State × Reply :=
  match s.sessions.get? token with
  | none => (s, .refused .tokenInvalid)
  | some session =>
      if session.revokedAt.isSome then
        if s.sessions.any (fun r => decide (r.2.account = session.account ∧ r.2.chainId = session.chainId) &&
            r.2.revokedAt.isNone) then
          (s.revokeAllSessions session.account now, .refused .tokenInvalid)
        else (s, .refused .tokenInvalid)
      else if session.expiresAt ≤ now then (s, .refused .tokenExpired)
      else
        match s.accounts.get? session.account with
        | none => (s, .refused .tokenInvalid)
        | some account =>
            if !account.isActive || account.isDeleted then (s, .refused .accountInactive)
            else ((s.revoke (fun id _ => decide (id = token)) now).issueTokens session.account (some session) now,
              .access session.account (.session token))

/-- `PortalJWTAuthentication.get_user` -/
def present (token now : Nat) : Reply :=
  match s.sessions.get? token with
  | none => .refused .tokenInvalid
  | some session =>
      if session.createdAt + accessTokenLifetime ≤ now then .refused .tokenExpired
      else
        match s.accounts.get? session.account with
        | none => .refused .notFound
        | some account =>
            if account.isDeleted then .refused .notFound
            else if !account.isActive || ((s.contacts.get? account.contact).map Contact.isDeleted).getD true then
              .refused .accountInactive
            else .access session.account (.session token)

/-! ## Links -/

/-- The links of an account and a purpose, all used. -/
def retired (links : Rows OneTimeToken) (account : Nat) (purpose : Purpose) (now : Nat) : Rows OneTimeToken :=
  links.updateWhere (fun _ link => decide (link.account = account ∧ link.purpose = purpose) && link.usedAt.isNone)
    (fun link => { link with usedAt := some now })

/-- `_issue_one_time_token` -/
def issueOneTimeToken (account : Nat) (purpose : Purpose) (lifetime now : Nat) : State :=
  { s with
    links := (retired s.links account purpose now).insert s.nextLink ⟨account, purpose, now + lifetime, none⟩
    nextLink := s.nextLink + 1 }

/-- The row `_consume_one_time_token` marks. -/
def consumable (token : Nat) (purpose : Purpose) (now : Nat) : Except Failure OneTimeToken :=
  match (s.links.get? token).filter (fun record => decide (record.purpose = purpose)) with
  | none => .error .tokenInvalid
  | some record =>
      if record.usedAt.isSome then .error .tokenInvalid
      else if record.expiresAt ≤ now then .error .tokenExpired
      else .ok record

def consume (token now : Nat) : State :=
  { s with links := s.links.update token (fun record => { record with usedAt := some now }) }

/-! ## Invitation -/

/-- The live account of a contact. -/
def accountOf (contact : Nat) : Option (Nat × Account) :=
  s.accounts.find? (fun r => decide (r.2.contact = contact) && !r.2.isDeleted)

/-- An active account, other than one, has the address. -/
def emailInUse (email : String) (other : Option Nat) : Bool :=
  s.accounts.any (fun r => decide (r.2.email = email ∧ some r.1 ≠ other) && r.2.isActive && !r.2.isDeleted)

def invitationEmail (contact : Contact) : String := (strip contact.email).toLower

/-- What `invite` refuses. -/
def invitable (customer contact : Nat) : Except Failure (String × Option Nat) :=
  match (s.contacts.get? contact).filter (fun row => !row.isDeleted) with
  | none => .error .contactNotOfCustomer
  | some row =>
      let email := invitationEmail row
      if row.customer ≠ customer then .error .contactNotOfCustomer
      else if email.isEmpty then .error .contactHasNoEmail
      else if ((s.accountOf contact).map (fun r => r.2.isActive)).getD false then
        .error .portalAccountAlreadyActive
      else if s.emailInUse email none then .error .portalEmailInUse
      else .ok (email, (s.accountOf contact).map Prod.fst)

/-- The account of an invitation: a new one, or the one there is. -/
def prepare (customer contact : Nat) (email : String) (now : Nat) : Option Nat -> State
  | none => { s with
      accounts := s.accounts.insert s.nextAccount ⟨customer, contact, email, "", false, now, none, none, false⟩
      nextAccount := s.nextAccount + 1 }
  | some id => { s with
      accounts := s.accounts.update id (fun account => { account with email := email, invitedAt := now })
      closed := s.closed.filter (fun closing => decide (closing.account ≠ id)) }

def invite (customer contact now : Nat) : State × Reply :=
  match s.invitable customer contact with
  | .error failure => (s, .refused failure)
  | .ok (email, account) =>
      ((s.prepare customer contact email now account).issueOneTimeToken (account.getD s.nextAccount)
        .portalInvitation invitationLifetime now, .done)

/-- The account a link opens, by the conditions of `accept`. -/
def acceptable (token now : Nat) : Except Failure Nat :=
  match s.consumable token .portalInvitation now with
  | .error failure => .error failure
  | .ok record =>
      match s.accounts.get? record.account with
      | none => .error .tokenInvalid
      | some account =>
          if account.isDeleted || ((s.contacts.get? account.contact).map Contact.isDeleted).getD true then
            .error .tokenInvalid
          else if s.emailInUse account.email (some record.account) then .error .portalEmailInUse
          else .ok record.account

/-- `accept`, and the session `PortalAcceptView` starts. -/
def accept (token : Nat) (password : String) (now : Nat) : State × Reply :=
  match s.acceptable token now with
  | .error failure => (s, .refused failure)
  | .ok id =>
      let accepted := { s.consume token now with
        accounts := s.accounts.update id (fun account =>
          { account with
            password := password
            isActive := true
            acceptedAt := some now
            deactivatedAt := none }) }
      (accepted.issueTokens id none now, .access id (.link token))

/-! ## Closing -/

def deactivated (account : Account) (now : Nat) : Account :=
  { account with isActive := false, deactivatedAt := some now }

/-- `deactivate` -/
def deactivate (id now : Nat) : State × Reply :=
  match (s.accounts.get? id).filter (fun account => !account.isDeleted) with
  | none => (s, .refused .notFound)
  | some _ =>
      ({ s.revokeAllSessions id now with
        accounts := s.accounts.update id (fun account => deactivated account now)
        closed := ⟨id, s.nextLink, s.nextSession⟩ :: s.closed }, .done)

/-- The accounts `close_accounts_of` comes to. -/
def closes (contact : Nat) (account : Account) : Bool :=
  decide (account.contact = contact) && !account.isDeleted && account.isActive

/-- `close_accounts_of`.  The firm means every account of the contact. -/
def closeAccountsOf (contact now : Nat) : State :=
  let shut := s.accounts.filter (fun r => closes contact r.2)
  let meant := s.accounts.filter (fun r => decide (r.2.contact = contact) && !r.2.isDeleted)
  { s.revoke (fun _ row => shut.any (fun r => decide (r.1 = row.account))) now with
    accounts := s.accounts.updateWhere (fun _ account => closes contact account)
      (fun account => deactivated account now)
    closed := meant.map (fun r => ⟨r.1, s.nextLink, s.nextSession⟩) ++ s.closed }

def deleteContact (contact now : Nat) : State :=
  { s with contacts := s.contacts.update contact (fun row => { row with isDeleted := true }) }.closeAccountsOf
    contact now

/-! ## Password reset -/

def requestPasswordReset (email : String) (now : Nat) : State :=
  match s.accounts.find? (fun r => decide (r.2.email = email.toLower) && r.2.isActive && !r.2.isDeleted) with
  | none => s
  | some (id, _) => s.issueOneTimeToken id .portalPasswordReset passwordResetLifetime now

def confirmPasswordReset (token : Nat) (newPassword : String) (now : Nat) : State × Reply :=
  match s.consumable token .portalPasswordReset now with
  | .error failure => (s, .refused failure)
  | .ok record =>
      match s.accounts.get? record.account with
      | none => (s, .refused .tokenInvalid)
      | some account =>
          if !account.isActive then (s, .refused .accountInactive)
          else ({ (s.consume token now).revokeAllSessions record.account now with
            accounts := s.accounts.update record.account (fun account =>
              { account with password := newPassword }) }, .access record.account (.link token))

/-! ## Requests -/

def answer (event : Event) : State × Reply :=
  match event.request with
  | .invite customer contact => s.invite customer contact event.now
  | .accept token password => s.accept token password event.now
  | .signIn email password => s.signIn email password event.now
  | .rotate token => s.rotate token event.now
  | .signOut token => (s.revoke (fun id _ => decide (id = token)) event.now, .done)
  | .present session => (s, s.present session event.now)
  | .requestPasswordReset email => (s.requestPasswordReset email event.now, .done)
  | .confirmPasswordReset token newPassword => s.confirmPasswordReset token newPassword event.now
  | .deactivate account => s.deactivate account event.now
  | .deleteContact contact => (s.deleteContact contact event.now, .done)
  | .editContact contact email =>
      ({ s with contacts := s.contacts.update contact (fun row => { row with email := email }) }, .done)

def step (event : Event) : State := (s.answer event).1

end State
end Portal
end Shiftlush
