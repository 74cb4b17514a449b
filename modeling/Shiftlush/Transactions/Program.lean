import Mathlib.Data.List.Basic
import Mathlib.Tactic.Common

namespace Shiftlush
namespace Transactions

/-!
# Programs of a database transaction

A transaction is written as a tree of the statements it sends, one node for
each.  Between two statements anything may happen in the other sessions, so a
statement is the unit of interleaving and a program never sees more of the
database than the answer of one statement.

Reads come in two kinds.  `fetch` looks for something, and what it finds is
meant to stay until the commit, because of a lock the transaction holds or
because such rows never change; that it found nothing is worth nothing a moment
later.  `peek` promises nothing at all: its answer may be stale at once.  The
machine executes both alike, on the committed rows with the transaction's own
writes applied; the difference is a proof obligation on `fetch`.
-/

/-- The two row locks that matter here: `FOR KEY SHARE`, which a foreign key
check takes, and `FOR UPDATE`. -/
inductive LockMode where
  | keyShare
  | update
  deriving DecidableEq, Repr

/-- Two sessions exclude each other unless both only share the key. -/
def LockMode.conflicts : LockMode -> LockMode -> Bool
  | .keyShare, .keyShare => false
  | _, _ => true

theorem LockMode.conflicts_update (mode : LockMode) : LockMode.conflicts .update mode = true := by
  cases mode <;> rfl

theorem LockMode.conflicts_comm (first second : LockMode) :
    first.conflicts second = second.conflicts first := by
  cases first <;> cases second <;> rfl

/-- A transaction over a database `S` with lockable rows `R`.  `N` is what a
stale read may leave in the session's log, `E` the errors a request answers
with.  `rollback` gives the attempt up and goes on in a new transaction. -/
inductive Prog (S R N E : Type) (α : Type) : Type 1 where
  | done (answer : α)
  | raise (error : E)
  | rollback (next : Prog S R N E α)
  | lock (mode : LockMode) (row : R) (next : Prog S R N E α)
  | fetch {β : Type} (query : S -> Option β) (next : β -> Prog S R N E α)
      (missing : Prog S R N E α)
  | peek {β : Type} (query : S -> β) (log : β -> List N) (next : β -> Prog S R N E α)
  | fresh (next : Nat -> Prog S R N E α)
  | write (update : S -> S) (next : Prog S R N E α)

variable {S R N E : Type} {α β : Type}

namespace Prog

def bind : Prog S R N E α -> (α -> Prog S R N E β) -> Prog S R N E β
  | .done answer, f => f answer
  | .raise error, _ => .raise error
  | .rollback next, f => .rollback (next.bind f)
  | .lock mode row next, f => .lock mode row (next.bind f)
  | .fetch query next missing, f => .fetch query (fun b => (next b).bind f) (missing.bind f)
  | .peek query log next, f => .peek query log (fun b => (next b).bind f)
  | .fresh next, f => .fresh (fun id => (next id).bind f)
  | .write update next, f => .write update (next.bind f)

instance : Monad (Prog S R N E) where
  pure := .done
  bind := .bind

@[simp] theorem pure_eq (answer : α) : (pure answer : Prog S R N E α) = .done answer := rfl

@[simp] theorem bind_eq (p : Prog S R N E α) (f : α -> Prog S R N E β) : p >>= f = p.bind f := rfl

end Prog

/-! ## The statements, as a program writes them -/

/-- Wait for a row and keep it until the end of the transaction. -/
def lock (mode : LockMode) (row : R) : Prog S R N E Unit := .lock mode row (.done ())

/-- Read something that has to be there, and that stays. -/
def fetch (query : S -> Option β) (error : E) : Prog S R N E β :=
  .fetch query .done (.raise error)

/-- Look for something that stays once it is there. -/
def find (query : S -> Option β) : Prog S R N E (Option β) :=
  .fetch query (fun b => .done (some b)) (.done none)

/-- Refuse unless a test holds, and goes on holding. -/
def ensure (test : S -> Bool) (error : E) : Prog S R N E Unit :=
  .fetch (fun s => if test s then some () else none) .done (.raise error)

/-- Read a value that stays, whatever it is.  (`none` is not an answer of the
query, so the last branch is never taken.) -/
def observe (query : S -> β) (error : E) : Prog S R N E β :=
  .fetch (fun s => some (query s)) .done (.raise error)

/-- Read a value nothing keeps. -/
def peek (query : S -> β) : Prog S R N E β := .peek query (fun _ => []) .done

/-- Read a value nothing keeps, and leave a note of it. -/
def peekLogged (query : S -> β) (log : β -> List N) : Prog S R N E β := .peek query log .done

/-- A primary key no row has had. -/
def fresh : Prog S R N E Nat := .fresh .done

def write (update : S -> S) : Prog S R N E Unit := .write update (.done ())

/-- Refuse on the arguments alone. -/
def require (test : Bool) (error : E) : Prog S R N E Unit :=
  if test then .done () else .raise error

/-- Run a program for each element in turn and collect the answers. -/
def forEach : List β -> (β -> Prog S R N E α) -> Prog S R N E (List α)
  | [], _ => .done []
  | item :: items, body => (body item).bind (fun answer =>
      (forEach items body).bind (fun answers => .done (answer :: answers)))

end Transactions
end Shiftlush
