import Shiftlush.Transactions.Notes
import Shiftlush.Transitions
import Shiftlush.Outcomes
import Mathlib.Logic.Function.Basic

namespace Shiftlush
namespace Transactions

open Transitions (everyStep)

/-!
# One request after another

What a program does with no other session about, and what a list of requests
makes of the rows when each comes after the one before has ended.  A schedule is
serializable if the rows it leaves are those of some such list of the requests
that succeeded in it.  The keys a request draws are whatever is unused.
-/

variable {S R N E Q A : Type} {α β : Type}

namespace Prog

/-- Alone on the committed rows `s`, with writes that made `view` of them: the
answer, the view it leaves, and the keys it has not drawn. -/
def alone (s : S) : Prog S R N E α -> S -> (Nat -> Nat) -> Except E (α × S × (Nat -> Nat))
  | .done answer, view, keys => .ok (answer, view, keys)
  | .raise error, _, _ => .error error
  | .rollback next, _, keys => next.alone s s keys
  | .lock _ _ next, view, keys => next.alone s view keys
  | .fetch query next missing, view, keys =>
      match query view with
      | some answer => (next answer).alone s view keys
      | none => missing.alone s view keys
  | .peek query _ next, view, keys => (next (query view)).alone s view keys
  | .fresh next, view, keys => (next (keys 0)).alone s view (fun k => keys (k + 1))
  | .write update next, view, keys => next.alone s (update view) keys

variable {s view view' : S} {keys keys' : Nat -> Nat}

theorem alone_bind (p : Prog S R N E α) (f : α -> Prog S R N E β) :
    (p.bind f).alone s view keys =
      p.alone s view keys >>= fun done => (f done.1).alone s done.2.1 done.2.2 := by
  induction p generalizing view keys with
  | done answer => rfl
  | raise error => rfl
  | rollback next ih => exact ih
  | lock mode row next ih => exact ih
  | fetch query next missing ih ih_missing =>
      simp only [alone, Prog.bind]
      cases query view with
      | some answer => exact ih answer
      | none => exact ih_missing
  | peek query log next ih => exact ih (query view)
  | fresh next ih => exact ih (keys 0)
  | write update next ih => exact ih

end Prog

/-! ## The statements -/

section Statements

variable {s view : S} {keys : Nat -> Nat}

theorem alone_lock {mode : LockMode} {row : R} :
    (lock mode row : Prog S R N E Unit).alone s view keys = .ok ((), view, keys) := rfl

theorem alone_fetch {query : S -> Option β} {error : E} :
    (fetch query error : Prog S R N E β).alone s view keys =
      match query view with
      | some answer => .ok (answer, view, keys)
      | none => .error error := by
  unfold fetch
  simp only [Prog.alone]

theorem alone_observe {query : S -> β} {error : E} :
    (observe query error : Prog S R N E β).alone s view keys = .ok (query view, view, keys) := rfl

theorem alone_peek {query : S -> β} :
    (peek query : Prog S R N E β).alone s view keys = .ok (query view, view, keys) := rfl

theorem alone_peekLogged {query : S -> β} {log : β -> List N} :
    (peekLogged query log : Prog S R N E β).alone s view keys = .ok (query view, view, keys) := rfl

theorem alone_fresh :
    (fresh : Prog S R N E Nat).alone s view keys = .ok (keys 0, view, fun k => keys (k + 1)) := rfl

theorem alone_write {update : S -> S} :
    (write update : Prog S R N E Unit).alone s view keys = .ok ((), update view, keys) := rfl

theorem alone_ensure {test : S -> Bool} {error : E} :
    (ensure test error : Prog S R N E Unit).alone s view keys =
      if test view then .ok ((), view, keys) else .error error := by
  unfold ensure
  simp only [Prog.alone]
  cases test view with
  | true => rfl
  | false => rfl

theorem alone_require {test : Bool} {error : E} :
    (require test error : Prog S R N E Unit).alone s view keys =
      if test then .ok ((), view, keys) else .error error := by
  cases test with
  | true => rfl
  | false => rfl

end Statements

/-! ## A list of requests -/

/-- The rows after a request that was served alone: a refused one leaves them. -/
def served (serve : Q -> Prog S R N E A) (q : Q) (keys : Nat -> Nat) (s : S) : S :=
  match (serve q).alone s s keys with
  | .ok (_, view, _) => view
  | .error _ => s

/-- Keys to draw, none of which is in use. -/
structure Drawable (unused : Nat -> S -> Prop) (keys : Nat -> Nat) (s : S) : Prop where
  distinct : Function.Injective keys
  unused : ∀ k, unused (keys k) s

/-- An unused key may be the first to be drawn. -/
theorem exists_drawable {unused : Nat -> S -> Prop} {s : S} {key bound : Nat} (free : unused key s)
    (beyond : ∀ id, bound ≤ id -> unused id s) :
    ∃ keys, Drawable unused keys s ∧ keys 0 = key := by
  refine ⟨fun k => if k = 0 then key else key + bound + k, ⟨?_, ?_⟩, rfl⟩
  · intro k k' same
    dsimp only at same
    split at same
    · split at same
      · omega
      · omega
    · split at same
      · omega
      · omega
  · intro k
    split
    · exact free
    · exact beyond _ (by omega)

/-- The rows `s'` that the requests of a list make of `s`, one after another. -/
inductive Serial (serve : Q -> Prog S R N E A) (unused : Nat -> S -> Prop) : S -> List Q -> S -> Prop
  | nil {s} : Serial serve unused s [] s
  | cons {q keys s qs s'} : Drawable unused keys s -> Serial serve unused (served serve q keys s) qs s' ->
      Serial serve unused s (q :: qs) s'

theorem Serial.pair {serve : Q -> Prog S R N E A} {unused : Nat -> S -> Prop} {s s' : S} {q q' : Q}
    (serial : Serial serve unused s [q, q'] s') :
    ∃ keys keys', s' = served serve q' keys' (served serve q keys s) := by
  cases serial with
  | @cons _ keys _ _ _ _ rest =>
      cases rest with
      | @cons _ keys' _ _ _ _ rest =>
          cases rest
          exact ⟨keys, keys', rfl⟩

/-- The two orders of two requests. -/
theorem orders_of_pair {order : List Q} {q q' : Q} (perm : order.Perm [q, q']) :
    order = [q, q'] ∨ order = [q', q] := by
  rcases List.length_eq_two.mp perm.length_eq with ⟨first, second, rfl⟩
  rcases List.mem_pair.mp (perm.subset List.mem_cons_self) with rfl | rfl
  · have rest := (List.perm_cons first).mp perm
    rw [List.singleton_perm_singleton.mp rest]
    exact Or.inl rfl
  · have rest := (List.perm_cons first).mp (perm.trans (List.Perm.swap _ _ _))
    rw [List.singleton_perm_singleton.mp rest]
    exact Or.inr rfl

/-! ## Schedules -/

namespace Machine

variable [DecidableEq R]

/-- The requests that succeed in a schedule, in the order of their commits. -/
def succeeded (serve : Q -> Prog S R N E A) : Machine S R N E Q A -> List (Event Q) -> List Q
  | _, [] => []
  | m, event :: events =>
      ((m.committing event).map Session.request).toList ++ succeeded serve (m.step serve event) events

/-- The rows a schedule leaves are those of some order of the requests that
succeeded in it. -/
def Serializable (serve : Q -> Prog S R N E A) (unused : Nat -> S -> Prop) (m : Machine S R N E Q A)
    (events : List (Event Q)) : Prop :=
  ∃ order, order.Perm (m.succeeded serve events) ∧
    Serial serve unused m.committed order (Transitions.run (step serve) m events).committed

/-- If every commit leaves what its request alone would have, a schedule is
serial in the order of its commits. -/
theorem serial_run {serve : Q -> Prog S R N E A} {unused : Nat -> S -> Prop}
    {allowed : Machine S R N E Q A -> Event Q -> Bool} {J : Machine S R N E Q A -> Prop}
    (keeps : ∀ m event, allowed m event = true -> J m -> J (m.step serve event))
    (alone : ∀ m event session, allowed m event = true -> J m -> m.committing event = some session ->
      ∃ keys, Drawable unused keys m.committed ∧
        (m.step serve event).committed = served serve session.request keys m.committed)
    {m : Machine S R N E Q A} (now : J m) {events : List (Event Q)}
    (passes : everyStep (step serve) allowed m events = true) :
    Serial serve unused m.committed (m.succeeded serve events)
      (Transitions.run (step serve) m events).committed := by
  induction events generalizing m with
  | nil => exact .nil
  | cons event events ih =>
      rw [Transitions.everyStep_cons, Bool.and_eq_true] at passes
      have rest := ih (keeps m event passes.1 now) passes.2
      unfold succeeded
      cases commits : m.committing event with
      | none =>
          have still : (m.step serve event).committed = m.committed := by
            rw [step_committed, commits]
            rfl
          rw [still] at rest
          exact rest
      | some session =>
          rcases alone m event session passes.1 now commits with ⟨keys, drawable, after⟩
          rw [after] at rest
          exact .cons drawable rest

end Machine
end Transactions
end Shiftlush
