import Shiftlush.Transitions

namespace Shiftlush
namespace Idempotency

/-!
# Replay protection

`core.idempotency` for one key of one company and owner: requests that carry
it, statement by statement, and the nightly purge.

Clock readings are statements of their own, since any time may pass between a
reading and what is done with it.  A statement that writes the row and its
commit are one step, except for `_complete`: its transaction is the handler's,
and holds the row between the update and the commit.  A deletion is two
statements.  `QuerySet.delete` first selects the rows and then deletes them by
primary key, because the audit trail listens to the deletions of every model.
-/

/-- `PENDING_TIMEOUT`, in microseconds. -/
def pendingTimeout : Nat := 60000000

/-- `_RESERVE_ATTEMPTS` -/
def reserveAttempts : Nat := 3

/-- `IdempotencyKey` -/
structure IdempotencyKey where
  pk : Nat
  endpoint : String
  requestHash : String
  responseStatus : Option Nat
  responseBody : Option String
  createdAt : Nat
  expiresAt : Nat
  deriving DecidableEq, Repr

/-- What of a request the wrapper reads. -/
structure Request where
  endpoint : String
  fingerprint : String
  deriving DecidableEq, Repr

structure Response where
  status : Nat
  body : Option String
  deriving DecidableEq, Repr

/-- `_Reservation` -/
structure Reservation where
  pk : Nat
  reservedAt : Nat
  deriving DecidableEq, Repr

inductive KeyError where
  | keyReused
  | keyInFlight
  | integrityError
  deriving DecidableEq, Repr

inductive Outcome where
  /-- The answer of its own handler, whose work is committed. -/
  | answered (response : Response)
  /-- A handler that answered something else, or raised. -/
  | failed (response : Option Response)
  | replayed (response : Response)
  | refused (error : KeyError)
  deriving DecidableEq, Repr

/-- The two conditional updates that turn a row into a reservation. -/
inductive Candidate where
  | expired
  | abandoned
  deriving DecidableEq, Repr

/-- Where a request is.  `now`, `stamp` and `expiresAt` are clock readings, or
made from one. -/
inductive Stage where
  | reserving (attempt : Nat)
  | stamping (attempt now : Nat)
  | inserting (attempt now stamp : Nat)
  | looking (attempt now : Nat)
  | taking (attempt now pk : Nat) (candidate : Candidate)
  | handling (reservation : Reservation)
  | storing (reservation : Reservation) (response : Response)
  | completing (reservation : Reservation) (response : Response) (expiresAt : Nat)
  | committing (reservation : Reservation) (response : Response) (expiresAt : Nat)
  | releasing (reservation : Reservation) (response : Option Response)
  | deleting (pk : Nat) (response : Option Response)
  | done (outcome : Outcome)
  | lost
  deriving DecidableEq, Repr

structure Thread where
  request : Request
  stage : Stage
  deriving DecidableEq, Repr

/-- `purge_expired_keys`, and where it is. -/
inductive Purge where
  | scanning (now : Nat)
  | deleting (pk : Nat)
  | done
  deriving DecidableEq, Repr

/-- The database work of a handler, once committed. -/
structure Work where
  thread : Nat
  request : Request
  response : Response
  deriving DecidableEq, Repr

structure Machine where
  clock : Nat
  /-- The row stored under the key. -/
  row : Option IdempotencyKey
  /-- Who has updated the row and not committed yet. -/
  holder : Option Nat
  nextPk : Nat
  threads : List Thread
  purges : List Purge
  work : List Work
  deriving DecidableEq, Repr

inductive Event where
  | arrive (request : Request)
  | act (thread : Nat)
  /-- The handler answers. -/
  | handled (thread : Nat) (response : Response)
  /-- The handler, or the end of its transaction, raises. -/
  | raised (thread : Nat)
  | lose (thread : Nat)
  | purge
  | purgeAct (purge : Nat)
  | tick (time : Nat)
  deriving DecidableEq, Repr

def Response.isSuccess (response : Response) : Bool :=
  decide (200 ≤ response.status ∧ response.status < 300)

namespace IdempotencyKey

/-- `is_pending` -/
def isPending (row : IdempotencyKey) : Bool := row.responseStatus.isNone

/-- The update of `_take_over`. -/
def takenOver (row : IdempotencyKey) (request : Request) (now retention : Nat) : IdempotencyKey :=
  { row with endpoint := request.endpoint, requestHash := request.fingerprint,
             responseStatus := none, responseBody := none, createdAt := now,
             expiresAt := now + retention }

/-- The update of `_complete`. -/
def completed (row : IdempotencyKey) (response : Response) (expiresAt : Nat) : IdempotencyKey :=
  { row with responseStatus := some response.status, responseBody := response.body,
             expiresAt := expiresAt }

/-- The row a reservation inserts. -/
def pending (pk : Nat) (request : Request) (now stamp retention : Nat) : IdempotencyKey :=
  { pk := pk, endpoint := request.endpoint, requestHash := request.fingerprint,
    responseStatus := none, responseBody := none, createdAt := stamp, expiresAt := now + retention }

/-- The stored request is this one. -/
def isFor (row : IdempotencyKey) (request : Request) : Bool :=
  decide (row.requestHash = request.fingerprint ∧ row.endpoint = request.endpoint)

end IdempotencyKey

/-- `_Reservation.mine` -/
def Reservation.mine (reservation : Reservation) (row : IdempotencyKey) : Bool :=
  decide (row.pk = reservation.pk ∧ row.createdAt = reservation.reservedAt) && row.isPending

/-- The rows a take-over updates. -/
def Candidate.admits (candidate : Candidate) (now : Nat) (row : IdempotencyKey) : Bool :=
  match candidate with
  | .expired => decide (row.expiresAt ≤ now)
  | .abandoned => row.isPending && decide (row.createdAt + pendingTimeout < now)

/-- What `_reserve` does once its insert has failed. -/
def look (row : Option IdempotencyKey) (request : Request) (attempt now : Nat) : Stage :=
  match row with
  | none => if attempt = 0 then .reserving 1 else .done (.refused .integrityError)
  | some existing =>
      if existing.expiresAt ≤ now then .taking attempt now existing.pk .expired
      else if existing.isFor request = false then .done (.refused .keyReused)
      else
        match existing.responseStatus with
        | some status => .done (.replayed ⟨status, existing.responseBody⟩)
        | none =>
            if now < existing.createdAt + pendingTimeout then .done (.refused .keyInFlight)
            else .taking attempt now existing.pk .abandoned

/-- The next round of `_reserve`. -/
def again (attempt : Nat) : Stage :=
  if attempt + 1 < reserveAttempts then .reserving (attempt + 1)
  else .done (.refused .keyInFlight)

namespace Machine

def empty : Machine :=
  { clock := 0, row := none, holder := none, nextPk := 0, threads := [], purges := [], work := [] }

def setStage (m : Machine) (i : Nat) (thread : Thread) (stage : Stage) : Machine :=
  { m with threads := m.threads.set i { thread with stage := stage } }

/-- The row with this key waits for a commit. -/
def isHeld (m : Machine) (pk : Nat) : Bool := m.holder.isSome && m.row.any (·.pk = pk)

/-- The next statement of a request, where `retention` is that of the view
behind an endpoint. -/
def act (retention : String -> Nat) (m : Machine) (i : Nat) (thread : Thread) : Machine :=
  match thread.stage with
  | .reserving attempt => m.setStage i thread (.stamping attempt m.clock)
  | .stamping attempt now => m.setStage i thread (.inserting attempt now m.clock)
  | .inserting attempt now stamp =>
      match m.row with
      | some _ =>
          -- A second insert of the key waits for who has updated the first.
          if m.holder.isSome then m
          else { m.setStage i thread (.looking attempt now) with nextPk := m.nextPk + 1 }
      | none =>
          { m.setStage i thread (.handling ⟨m.nextPk, stamp⟩) with
            row := some (.pending m.nextPk thread.request now stamp
              (retention thread.request.endpoint))
            nextPk := m.nextPk + 1 }
  | .looking attempt now => m.setStage i thread (look m.row thread.request attempt now)
  | .taking attempt now pk candidate =>
      if m.isHeld pk then m
      else
        match m.row.filter (fun row => decide (row.pk = pk) && candidate.admits now row) with
        | none => m.setStage i thread (again attempt)
        | some row =>
            { m.setStage i thread (.handling ⟨pk, now⟩) with
              row := some (row.takenOver thread.request now (retention thread.request.endpoint)) }
  | .storing reservation response =>
      m.setStage i thread
        (.completing reservation response (m.clock + retention thread.request.endpoint))
  | .completing reservation response expiresAt =>
      if m.isHeld reservation.pk then m
      else
        match m.row.filter reservation.mine with
        | none => m.setStage i thread (.done (.refused .keyInFlight))
        | some _ =>
            { m.setStage i thread (.committing reservation response expiresAt) with
              holder := some i }
  | .committing _ response expiresAt =>
      { m.setStage i thread (.done (.answered response)) with
        row := m.row.map (·.completed response expiresAt)
        holder := none
        work := m.work ++ [⟨i, thread.request, response⟩] }
  | .releasing reservation response =>
      match m.row.filter reservation.mine with
      | none => m.setStage i thread (.done (.failed response))
      | some row => m.setStage i thread (.deleting row.pk response)
  | .deleting pk response =>
      if m.isHeld pk then m
      else { m.setStage i thread (.done (.failed response)) with
             row := m.row.filter (fun row => decide (row.pk ≠ pk)) }
  | .handling _ => m
  | .done _ => m
  | .lost => m

/-- The handler has answered: only a success is stored. -/
def handled (m : Machine) (i : Nat) (thread : Thread) (response : Response) : Machine :=
  match thread.stage with
  | .handling reservation =>
      if response.isSuccess then m.setStage i thread (.storing reservation response)
      else m.setStage i thread (.releasing reservation (some response))
  | _ => m

/-- An exception inside the transaction of the handler rolls it back. -/
def raised (m : Machine) (i : Nat) (thread : Thread) : Machine :=
  match thread.stage with
  | .handling reservation => m.setStage i thread (.releasing reservation none)
  | .storing reservation _ => m.setStage i thread (.releasing reservation none)
  | .completing reservation _ _ => m.setStage i thread (.releasing reservation none)
  | .committing reservation _ _ =>
      { m.setStage i thread (.releasing reservation none) with holder := none }
  | _ => m

/-- The worker dies, and its open transaction with it. -/
def lose (m : Machine) (i : Nat) (thread : Thread) : Machine :=
  match thread.stage with
  | .done _ => m
  | .committing _ _ _ => { m.setStage i thread .lost with holder := none }
  | _ => m.setStage i thread .lost

def purgeAct (m : Machine) (j : Nat) (purge : Purge) : Machine :=
  match purge with
  | .scanning now =>
      match m.row.filter (fun row => decide (row.expiresAt ≤ now)) with
      | none => { m with purges := m.purges.set j .done }
      | some row => { m with purges := m.purges.set j (.deleting row.pk) }
  | .deleting pk =>
      if m.isHeld pk then m
      else { m with purges := m.purges.set j .done
                    row := m.row.filter (fun row => decide (row.pk ≠ pk)) }
  | .done => m

def step (retention : String -> Nat) (m : Machine) : Event -> Machine
  | .arrive request => { m with threads := m.threads ++ [⟨request, .reserving 0⟩] }
  | .act i =>
      match m.threads[i]? with
      | some thread => m.act retention i thread
      | none => m
  | .handled i response =>
      match m.threads[i]? with
      | some thread => m.handled i thread response
      | none => m
  | .raised i =>
      match m.threads[i]? with
      | some thread => m.raised i thread
      | none => m
  | .lose i =>
      match m.threads[i]? with
      | some thread => m.lose i thread
      | none => m
  | .purge => { m with purges := m.purges ++ [.scanning m.clock] }
  | .purgeAct j =>
      match m.purges[j]? with
      | some purge => m.purgeAct j purge
      | none => m
  | .tick time => { m with clock := m.clock + time }

end Machine

end Idempotency
end Shiftlush
