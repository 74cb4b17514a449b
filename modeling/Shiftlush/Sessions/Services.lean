import Shiftlush.Transitions

namespace Shiftlush
namespace Sessions

/-!
# Refresh sessions

`apps.users.services` and its copy `apps.portal.services`: sign-in, rotation,
sign-out, the revocations and the password reset, statement by statement under
`READ COMMITTED`.  An `UPDATE` takes the rows its snapshot shows it, waits for
each that another transaction has written, and tests it again; its writes are
seen when its transaction commits.  A statement that writes and the commit
right after it are one step.

The lockout of a sign-in, which can only refuse it, is left out.
-/

/-- `Role` -/
inductive Role where
  | owner
  | admin
  | operations
  | technician
  | accountant
  deriving DecidableEq, Repr

/-- The two apps have the same tables and, but for what is marked below, the
same rules. -/
inductive App where
  | staff
  | portal
  deriving DecidableEq, Repr

/-- A `User`, or a `PortalAccount`. -/
structure Principal where
  app : App
  id : Nat
  deriving DecidableEq, Repr

structure Account where
  principal : Principal
  company : Option Nat
  /-- `none` in the portal. -/
  role : Option Role
  email : String
  /-- `none` when it is empty or unusable. -/
  password : Option String
  isActive : Bool
  isDeleted : Bool
  acceptedAt : Option Nat
  deriving DecidableEq, Repr

/-- `RefreshSession`, `PortalRefreshSession`.  The hash of a token is unique, so
the key of its row stands for the token. -/
structure RefreshSession where
  id : Nat
  owner : Principal
  chainId : Nat
  signedInAt : Nat
  expiresAt : Nat
  revokedAt : Option Nat
  deriving DecidableEq, Repr

/-- `OneTimeToken`, of the purpose that resets a password. -/
structure OneTimeToken where
  id : Nat
  owner : Principal
  expiresAt : Nat
  usedAt : Option Nat
  deriving DecidableEq, Repr

/-- `REFRESH_TOKEN_LIFETIME`, in seconds. -/
def refreshTokenLifetime : Nat := 30 * 24 * 3600

/-- `PASSWORD_RESET_LIFETIME` -/
def passwordResetLifetime : Nat := 3600

inductive Failure where
  | tokenInvalid
  | tokenExpired
  | accountInactive
  | invalidCredentials
  | cannotDeactivateSelf
  | lastOwnerCannotBeDeactivated
  | notFound
  deriving DecidableEq, Repr

inductive Request where
  | signIn (app : App) (email password : String)
  | rotate (app : App) (token : Nat)
  | signOut (app : App) (token : Nat)
  | revokeSession (user : Principal) (chainId : Nat)
  /-- With the refresh cookie of the request. -/
  | revokeOtherSessions (user : Principal) (cookie : Option Nat)
  | requestPasswordReset (app : App) (email : String)
  | confirmPasswordReset (app : App) (token : Nat) (newPassword : String)
  /-- `deactivate_user`, and `deactivate` in the portal. -/
  | deactivate (actor user : Principal)
  deriving DecidableEq, Repr

/-- Sign-outs and reuse detections also revoke; these are the requests that are
meant to end sessions for good. -/
def Request.isRevocation : Request -> Bool
  | .revokeSession _ _ => true
  | .revokeOtherSessions _ _ => true
  | .confirmPasswordReset _ _ _ => true
  | .deactivate _ _ => true
  | _ => false

/-! ## The table -/

namespace RefreshSession

def isLive (row : RefreshSession) : Bool := row.revokedAt.isNone

def revoked (row : RefreshSession) (now : Nat) : RefreshSession :=
  { row with revokedAt := some now }

end RefreshSession

structure Table where
  rows : List RefreshSession
  nextId : Nat
  deriving DecidableEq, Repr

namespace Table

/-- Set `revoked_at` of the rows with these keys. -/
def revoke (t : Table) (ids : List Nat) (now : Nat) : Table :=
  { t with rows := t.rows.map (fun row => if row.id ∈ ids then row.revoked now else row) }

/-- `issue_tokens`: a sign-in starts a chain, which its first row gives the
name, a rotation continues the one of the row it replaces. -/
def issue (t : Table) (owner : Principal) (continues : Option RefreshSession) (now : Nat) : Table :=
  { rows := t.rows ++ [{
      id := t.nextId
      owner := owner
      chainId := (continues.map RefreshSession.chainId).getD t.nextId
      signedInAt := (continues.map RefreshSession.signedInAt).getD now
      expiresAt := now + refreshTokenLifetime
      revokedAt := none }]
    nextId := t.nextId + 1 }

/-- The row of a token. -/
def find (t : Table) (app : App) (token : Nat) : Option RefreshSession :=
  t.rows.find? (fun row => decide (row.owner.app = app ∧ row.id = token))

end Table

/-! ## Bulk updates -/

/-- The filter of an `UPDATE … SET revoked_at`, apart from `revoked_at IS NULL`. -/
inductive Target where
  /-- `revoke_refresh_token` -/
  | token (app : App) (token : Nat)
  /-- `revoke_all_sessions` -/
  | all (owner : Principal)
  /-- `revoke_session` -/
  | chain (owner : Principal) (chainId : Nat)
  /-- `revoke_other_sessions` -/
  | others (owner : Principal) (keep : Option Nat)
  deriving DecidableEq, Repr

def Target.selects : Target -> RefreshSession -> Bool
  | .token app id, row => decide (row.owner.app = app ∧ row.id = id)
  | .all owner, row => decide (row.owner = owner)
  | .chain owner chainId, row => decide (row.owner = owner ∧ row.chainId = chainId)
  | .others owner keep, row => decide (row.owner = owner ∧ some row.chainId ≠ keep)

/-- The update is for the whole chain of the row. -/
def Target.takesChain : Target -> RefreshSession -> Bool
  | .token _ _, _ => false
  | target, row => target.selects row

/-- What the transaction of an update has written before it. -/
inductive Pending where
  | nothing
  | reset (record : OneTimeToken) (newPassword : String)
  /-- `is_active` of a portal account. -/
  | deactivation (account : Principal)
  deriving DecidableEq, Repr

/-- An update under way: the rows of its snapshot it has not come to yet, and
those it has written. -/
structure Update where
  target : Target
  pending : Pending
  now : Nat
  snapshot : List RefreshSession
  todo : List Nat
  done : List Nat
  deriving DecidableEq, Repr

namespace Update

def start (target : Target) (pending : Pending) (now : Nat) (rows : List RefreshSession) : Update :=
  { target := target, pending := pending, now := now, snapshot := rows
    todo := (rows.filter (fun row => target.selects row && row.isLive)).map RefreshSession.id
    done := [] }

/-- The chain is one the update is to end. -/
def covers (u : Update) (chainId : Nat) : Bool :=
  u.snapshot.any (fun row => u.target.takesChain row && decide (row.chainId = chainId))

end Update

/-! ## Requests under way -/

inductive Reply where
  /-- A pair that starts a chain. -/
  | signedIn (owner : Principal)
  /-- A pair for the token presented. -/
  | rotated (token : Nat)
  | ok
  deriving DecidableEq, Repr

inductive Stage where
  | begun
  /-- `authenticate` has returned. -/
  | verified (owner : Principal)
  /-- A token that was live; the user behind it has not been read yet. -/
  | loaded (row : RefreshSession)
  | rotating (row : RefreshSession)
  /-- The row has been updated, and is not committed. -/
  | issuing (row : RefreshSession) (now : Nat)
  /-- A token that was revoked. -/
  | superseded (row : RefreshSession)
  | consuming (record : OneTimeToken)
  | counting (user : Account)
  | deactivating (user : Principal)
  | revoking (target : Target) (pending : Pending)
  | updating (u : Update)
  | answered (reply : Reply)
  | refused (failure : Failure)
  | lost
  deriving DecidableEq, Repr

namespace Stage

/-- The token an exchange is under way for. -/
def row? : Stage -> Option RefreshSession
  | .loaded row => some row
  | .rotating row => some row
  | .issuing row _ => some row
  | _ => none

/-- The session rows its transaction has written. -/
def holds : Stage -> Nat -> Bool
  | .issuing row _, id => decide (row.id = id)
  | .updating u, id => decide (id ∈ u.done)
  | _, _ => false

def pending : Stage -> Pending
  | .revoking _ pending => pending
  | .updating u => u.pending
  | _ => .nothing

def holdsAccount (stage : Stage) (account : Principal) : Bool :=
  match stage.pending with
  | .nothing => false
  | .reset record _ => decide (record.owner = account)
  | .deactivation owner => decide (owner = account)

def holdsRecord (stage : Stage) (id : Nat) : Bool :=
  match stage.pending with
  | .reset record _ => decide (record.id = id)
  | _ => false

end Stage

/-- How a request ends once its update has been committed. -/
def Request.conclude (request : Request) (u : Update) : Stage :=
  match request with
  | .rotate _ _ => .refused .tokenInvalid
  | .revokeSession _ _ => if u.done = [] then .refused .notFound else .answered .ok
  | _ => .answered .ok

structure Thread where
  request : Request
  stage : Stage
  deriving DecidableEq, Repr

structure Machine where
  clock : Nat
  accounts : List Account
  resets : List OneTimeToken
  table : Table
  threads : List Thread
  deriving DecidableEq, Repr

inductive Event where
  | arrive (request : Request)
  | act (thread : Nat)
  | lose (thread : Nat)
  | tick (time : Nat)
  deriving DecidableEq, Repr

/-! ## Accounts -/

namespace Account

def checkPassword (account : Account) (raw : String) : Bool := decide (account.password = some raw)

/-- The order of `authenticate` in the portal: `-is_active`, `-accepted_at`, `id`. -/
def before (a b : Account) : Bool :=
  if a.isActive = b.isActive then
    decide (a.acceptedAt.getD 0 > b.acceptedAt.getD 0 ∨
      a.acceptedAt.getD 0 = b.acceptedAt.getD 0 ∧ a.principal.id < b.principal.id)
  else a.isActive

/-- Whether a token of the account is still exchanged. -/
def mayRotate (account : Account) : Bool :=
  match account.principal.app with
  | .staff => account.isActive
  | .portal => account.isActive && !account.isDeleted

end Account

namespace Machine

def account (m : Machine) (p : Principal) : Option Account :=
  m.accounts.find? (fun a => decide (a.principal = p))

/-- The account an address signs in to. -/
def signInAccount (m : Machine) (app : App) (email : String) : Option Account :=
  match app with
  | .staff => m.accounts.find? (fun a => decide (a.principal.app = .staff ∧ a.email = email.toLower))
  | .portal =>
      (m.accounts.filter (fun a => decide (a.principal.app = .portal ∧ a.email = email.toLower) &&
        !a.isDeleted && a.acceptedAt.isSome)).foldl
          (fun best a =>
            match best with
            | none => some a
            | some b => if a.before b then some a else some b) none

/-- The account a reset link is mailed to. -/
def resetAccount (m : Machine) (app : App) (email : String) : Option Account :=
  m.accounts.find? (fun a => decide (a.principal.app = app ∧ a.email = email.toLower) && a.isActive &&
    (decide (app = .staff) || !a.isDeleted))

/-- `authenticate` -/
def authenticate (m : Machine) (app : App) (email password : String) : Except Failure Principal :=
  match m.signInAccount app email with
  | none => .error .invalidCredentials
  | some account =>
      if account.checkPassword password = false then .error .invalidCredentials
      else if account.isActive = false then .error .accountInactive
      else .ok account.principal

/-- Active owners of a company other than this one. -/
def remainingOwners (m : Machine) (user : Account) : Nat :=
  (m.accounts.filter (fun a => decide (a.principal.app = .staff ∧ a.company = user.company ∧
    a.role = some .owner ∧ a.principal ≠ user.principal) && a.isActive)).length

def setAccount (m : Machine) (p : Principal) (f : Account -> Account) : List Account :=
  m.accounts.map (fun a => if a.principal = p then f a else a)

/-- A session row another transaction has written and not committed. -/
def isHeld (m : Machine) (i id : Nat) : Bool :=
  (m.threads.eraseIdx i).any (fun t => t.stage.holds id)

def accountHeld (m : Machine) (i : Nat) (p : Principal) : Bool :=
  (m.threads.eraseIdx i).any (fun t => t.stage.holdsAccount p)

def recordHeld (m : Machine) (i id : Nat) : Bool :=
  (m.threads.eraseIdx i).any (fun t => t.stage.holdsRecord id)

def setStage (m : Machine) (i : Nat) (thread : Thread) (stage : Stage) : Machine :=
  { m with threads := m.threads.set i { thread with stage := stage } }

/-! ## What a request does next -/

/-- `rotate_refresh_token`, up to its first query.  The portal reads the account
along with the session. -/
def present (m : Machine) (app : App) (token : Nat) : Stage :=
  match m.table.find app token with
  | none => .refused .tokenInvalid
  | some row =>
      if row.isLive = false then .superseded row
      else if row.expiresAt ≤ m.clock then .refused .tokenExpired
      else
        match app with
        | .staff => .loaded row
        | .portal =>
            if (m.account row.owner).any Account.mayRotate then .rotating row
            else .refused .accountInactive

/-- `_consume_one_time_token`, up to its first query. -/
def consume (m : Machine) (app : App) (token : Nat) : Stage :=
  match m.resets.find? (fun r => decide (r.owner.app = app ∧ r.id = token)) with
  | none => .refused .tokenInvalid
  | some record =>
      if record.usedAt.isSome then .refused .tokenInvalid
      else if record.expiresAt ≤ m.clock then .refused .tokenExpired
      else
        match app with
        | .staff => .consuming record
        | .portal =>
            if (m.account record.owner).any Account.isActive then .consuming record
            else .refused .accountInactive

/-- The first statement of a request. -/
def begin (m : Machine) : Request -> Stage
  | .signIn app email password =>
      match m.authenticate app email password with
      | .error failure => .refused failure
      | .ok owner => .verified owner
  | .rotate app token => m.present app token
  | .signOut app token => .revoking (.token app token) .nothing
  | .revokeSession user chainId => .revoking (.chain user chainId) .nothing
  | .revokeOtherSessions user cookie =>
      -- `session_for_refresh_token` looks among the sessions of the user.
      let keep := (cookie.bind (m.table.find user.app)).filter
        (fun row => decide (row.owner = user))
      .revoking (.others user (keep.map RefreshSession.chainId)) .nothing
  | .requestPasswordReset _ _ => .answered .ok
  | .confirmPasswordReset app token _ => m.consume app token
  | .deactivate actor user =>
      match m.account user with
      | none => .refused .notFound
      | some account =>
          if user.app = .portal then .deactivating user
          else if user = actor then .refused .cannotDeactivateSelf
          else if account.role = some .owner then .counting account
          else .deactivating user

/-- `_issue_one_time_token`: the links mailed before stop working. -/
def mailReset (m : Machine) (app : App) (email : String) : List OneTimeToken :=
  match m.resetAccount app email with
  | none => m.resets
  | some account =>
      m.resets.map (fun r =>
        if r.owner = account.principal ∧ r.usedAt.isNone then { r with usedAt := some m.clock } else r)
        ++ [⟨(m.resets.map OneTimeToken.id).foldl max 0 + 1, account.principal, m.clock + passwordResetLifetime, none⟩]

/-- The commit of an update, with what its transaction has written before. -/
def commit (m : Machine) (u : Update) : Machine :=
  let m := { m with table := m.table.revoke u.done u.now }
  match u.pending with
  | .nothing => m
  | .reset record newPassword =>
      { m with
        resets := m.resets.map (fun r => if r.id = record.id then { r with usedAt := some u.now } else r)
        accounts := m.setAccount record.owner (fun a => { a with password := some newPassword }) }
  | .deactivation p => { m with accounts := m.setAccount p (fun a => { a with isActive := false }) }

/-- The next statement of a request. -/
def act (m : Machine) (i : Nat) (thread : Thread) : Machine :=
  match thread.stage with
  | .begun =>
      match thread.request with
      | .requestPasswordReset app email =>
          { m.setStage i thread (.answered .ok) with resets := m.mailReset app email }
      | request => m.setStage i thread (m.begin request)
  | .verified owner =>
      { m.setStage i thread (.answered (.signedIn owner)) with
        table := m.table.issue owner none m.clock }
  | .loaded row =>
      if (m.account row.owner).any Account.mayRotate then m.setStage i thread (.rotating row)
      else m.setStage i thread (.refused .accountInactive)
  | .rotating row =>
      -- The update goes by the key of the row alone.
      if m.isHeld i row.id then m else m.setStage i thread (.issuing row m.clock)
  | .issuing row now =>
      { m.setStage i thread (.answered (.rotated row.id)) with
        table := (m.table.revoke [row.id] now).issue row.owner (some row) m.clock }
  | .superseded row =>
      if m.table.rows.any (fun r => decide (r.owner = row.owner ∧ r.chainId = row.chainId) && r.isLive)
      then m.setStage i thread (.revoking (.all row.owner) .nothing)
      else m.setStage i thread (.refused .tokenInvalid)
  | .consuming record =>
      match thread.request with
      | .confirmPasswordReset _ _ newPassword =>
          if m.recordHeld i record.id || m.accountHeld i record.owner then m
          else m.setStage i thread (.revoking (.all record.owner) (.reset record newPassword))
      | _ => m
  | .counting user =>
      if m.remainingOwners user = 0 then m.setStage i thread (.refused .lastOwnerCannotBeDeactivated)
      else m.setStage i thread (.deactivating user.principal)
  | .deactivating user =>
      if m.accountHeld i user then m
      else
        match user.app with
        -- Its own transaction in the staff app, the same as the update's in the portal.
        | .staff =>
            { m.setStage i thread (.revoking (.all user) .nothing) with
              accounts := m.setAccount user (fun a => { a with isActive := false }) }
        | .portal => m.setStage i thread (.revoking (.all user) (.deactivation user))
  | .revoking target pending =>
      m.setStage i thread (.updating (.start target pending m.clock m.table.rows))
  | .updating u =>
      match u.todo with
      | [] => (m.commit u).setStage i thread (thread.request.conclude u)
      | id :: todo =>
          if m.isHeld i id then m
          else if m.table.rows.any (fun row => decide (row.id = id) && row.isLive) then
            m.setStage i thread (.updating { u with todo := todo, done := id :: u.done })
          else m.setStage i thread (.updating { u with todo := todo })
  | .answered _ => m
  | .refused _ => m
  | .lost => m

/-- The worker dies, and its open transaction with it. -/
def lose (m : Machine) (i : Nat) (thread : Thread) : Machine :=
  match thread.stage with
  | .answered _ => m
  | .refused _ => m
  | _ => m.setStage i thread .lost

def step (m : Machine) : Event -> Machine
  | .arrive request => { m with threads := m.threads ++ [⟨request, .begun⟩] }
  | .act i =>
      match m.threads[i]? with
      | some thread => m.act i thread
      | none => m
  | .lose i =>
      match m.threads[i]? with
      | some thread => m.lose i thread
      | none => m
  | .tick time => { m with clock := m.clock + time }

/-- Nobody has signed in yet. -/
def init (accounts : List Account) (resets : List OneTimeToken) : Machine :=
  { clock := 0, accounts := accounts, resets := resets, table := ⟨[], 0⟩, threads := [] }

end Machine

/-- An account of the staff app, for the examples. -/
def someone : Account where
  principal := ⟨.staff, 1⟩
  company := some 1
  role := some .technician
  email := "usta@example.com"
  password := some "parola"
  isActive := true
  isDeleted := false
  acceptedAt := none

end Sessions
end Shiftlush
