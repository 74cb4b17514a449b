import Shiftlush.Caches
import Mathlib.Algebra.Order.Field.Basic
import Mathlib.Data.String.Basic
import Mathlib.Tactic.Linarith

namespace Shiftlush
namespace Users
namespace Lockout

open Caches (Cache Entry find)

/-!
# The sign-in lockout

`apps.users.lockout` and `authenticate`.  Each call of the cache has a time of its own,
so that an entry may expire between two of them.  The text that is hashed stands for
its hash.
-/

variable {K : Type} [Field K] [LinearOrder K] [IsStrictOrderedRing K]

def maxAttempts : Nat := 5

def attemptWindowSeconds : K := 15 * 60

def lockoutSeconds : K := 15 * 60

inductive Key where
  | failures (digest : String)
  | lock (digest : String)
  deriving DecidableEq

/-- What is looked up for an e-mail. -/
structure Account where
  passwordMatches : Bool
  isActive : Bool
  deriving DecidableEq

inductive Outcome where
  | user
  | accountLocked
  | invalidCredentials
  | accountInactive
  deriving DecidableEq, Repr

/-- An attempt to sign in, and when it comes to each of its calls. -/
structure Attempt (K : Type) [LE K] where
  email : String
  ip : Option String
  account : Option Account
  asked : K
  checked : K
  added : K
  counted : K
  opened : K
  closed : K
  finished : K
  asked_le : asked ≤ checked
  checked_le : checked ≤ added
  added_le : added ≤ counted
  counted_le : counted ≤ opened
  opened_le : opened ≤ closed
  closed_le : closed ≤ finished

variable (lower : String -> String)

/-- `_digest`, before it is hashed. -/
def digest (email : String) (ip : Option String) : String :=
  lower email ++ "\x00" ++ (match ip with
    | none => "unknown"
    | some ip => if ip.isEmpty then "unknown" else ip)

/-- The pair of an attempt. -/
def Attempt.digest (attempt : Attempt K) : String := Lockout.digest lower (lower attempt.email) attempt.ip

def isLocked (cache : Cache Key K Nat) (digest : String) (now : K) : Bool := (find cache (.lock digest) now).isSome

def recordFailure (cache : Cache Key K Nat) (digest : String) (attempt : Attempt K) : Cache Key K Nat :=
  let key := Key.failures digest
  let cache := Caches.add cache key 0 (attempt.added + attemptWindowSeconds) attempt.added
  let counted := (Caches.incr cache key attempt.counted).getD
    (1, Caches.set cache key 1 (attempt.opened + attemptWindowSeconds))
  if maxAttempts ≤ counted.1 then
    Caches.delete (Caches.set counted.2 (.lock digest) 1 (attempt.closed + lockoutSeconds)) key
  else counted.2

def clear (cache : Cache Key K Nat) (digest : String) : Cache Key K Nat :=
  Caches.delete (Caches.delete cache (.failures digest)) (.lock digest)

def authenticate (cache : Cache Key K Nat) (attempt : Attempt K) : Outcome × Cache Key K Nat :=
  let digest := attempt.digest lower
  if isLocked cache digest attempt.asked then (.accountLocked, cache)
  else
    match attempt.account with
    | none => (.invalidCredentials, recordFailure cache digest attempt)
    | some account =>
        if !account.passwordMatches then (.invalidCredentials, recordFailure cache digest attempt)
        else if !account.isActive then (.accountInactive, cache)
        else (.user, clear cache digest)

/-! ## Runs -/

/-- The cache after a row of attempts. -/
def run (cache : Cache Key K Nat) (attempts : List (Attempt K)) : Cache Key K Nat :=
  attempts.foldl (fun cache attempt => (authenticate lower cache attempt).2) cache

/-- The attempts of a pair that end so. -/
def answered (outcome : Outcome) (digest : String) (cache : Cache Key K Nat) : List (Attempt K) -> List (Attempt K)
  | [] => []
  | attempt :: attempts =>
      let later := answered outcome digest (authenticate lower cache attempt).2 attempts
      if attempt.digest lower = digest ∧ (authenticate lower cache attempt).1 = outcome then attempt :: later
      else later

/-- Each attempt completes before the next. -/
def Timed (attempts : List (Attempt K)) : Prop :=
  attempts.Pairwise (fun attempt next => attempt.finished ≤ next.asked)

end Lockout
end Users
end Shiftlush
