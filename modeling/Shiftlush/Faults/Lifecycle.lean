import Shiftlush.Faults.Runs
import Mathlib.Data.List.Induction

namespace Shiftlush
namespace Faults

open Fleet (FaultStatus)
open Transactions

/-!
# The history of a fault

The stamps of a fault are a record of what it has been through: each is set if
some earlier row of the fault had the status it belongs to.
-/

/-- At some time so far the fault had the status. -/
def HasBeen (clock : Nat) (events : List (Event Request)) (id : Nat) (status : FaultStatus) : Prop :=
  Transitions.Met (Machine.step serve) (Machine.init (Board.empty clock) 0 : Desk)
    (fun m => ∃ fault, m.committed.faults.get? id = some fault ∧ fault.status = status) events

/-- The row of a fault that has had the history. -/
structure Lived (clock : Nat) (events : List (Event Request)) (id : Nat) (fault : Fault) : Prop where
  /-- A stamp is set exactly when the fault has been at its stage. -/
  history : ∀ stage, stage ≠ .open -> ((fault.stamp stage).isSome = true ↔ HasBeen clock events id stage)
  /-- The stamps up to the status are set, and the others are not. -/
  agrees : fault.course.Agrees
  ordered : fault.course.Ordered
  past : fault.course.Until (boardAfter clock events).clock
  /-- A fault that is closed or cancelled stays so. -/
  ended : fault.status = .closed ∨ fault.status = .cancelled -> ∀ more, ∃ fault',
    (boardAfter clock (events ++ more)).faults.get? id = some fault' ∧ fault'.status = fault.status

theorem boardAfter_concat (clock : Nat) (events : List (Event Request)) (event : Event Request) :
    (boardAfter clock events).Lives (boardAfter clock (events ++ [event])) := by
  have lives := Orderly.lives (orderly_deskAfter clock events) event
  unfold boardAfter deskAfter at lives ⊢
  rw [Transitions.run_concat]
  exact lives

/-- No fault is ever deleted. -/
theorem kept_after {clock id : Nat} {events : List (Event Request)} {fault : Fault}
    (found : (boardAfter clock events).faults.get? id = some fault) (more : List (Event Request)) :
    ∃ fault', (boardAfter clock (events ++ more)).faults.get? id = some fault' := by
  induction more using List.reverseRecOn with
  | nil => exact ⟨fault, by rw [List.append_nil, found]⟩
  | append_singleton more event ih =>
      rcases ih with ⟨fault', found'⟩
      rcases (boardAfter_concat clock (events ++ more) event).goes id fault' found' with ⟨fault'', found'', _⟩
      rw [List.append_assoc] at found''
      exact ⟨fault'', found''⟩

theorem hasBeen_concat {clock id : Nat} {events : List (Event Request)} {event : Event Request} {status : FaultStatus} :
    HasBeen clock (events ++ [event]) id status ↔ HasBeen clock events id status ∨ ∃ fault,
      (boardAfter clock (events ++ [event])).faults.get? id = some fault ∧ fault.status = status :=
  Transitions.met_concat

/-- A fault without a row has no history. -/
theorem not_hasBeen {clock id : Nat} {events : List (Event Request)}
    (absent : (boardAfter clock events).faults.get? id = none) (status : FaultStatus) :
    ¬ HasBeen clock events id status := by
  rintro ⟨before, ⟨rest, rfl⟩, fault, found, _⟩
  rcases kept_after found rest with ⟨fault', found'⟩
  rw [absent] at found'
  cases found'

theorem sound_after (clock : Nat) (events : List (Event Request)) : ∀ id fault,
    (boardAfter clock events).faults.get? id = some fault -> fault.course.Sound ∧
      ∀ stage, stage ≠ .open -> ((fault.stamp stage).isSome = true ↔ HasBeen clock events id stage) := by
  induction events using List.reverseRecOn with
  | nil =>
      intro id fault found
      cases found
  | append_singleton events event ih =>
      intro id fault' found'
      have lives := boardAfter_concat clock events event
      -- The last row adds its status to the history.
      have here (stage : FaultStatus) : HasBeen clock (events ++ [event]) id stage ↔
          HasBeen clock events id stage ∨ fault'.status = stage := by
        rw [hasBeen_concat, found']
        simp only [Option.some.injEq, exists_eq_left']
      cases found : (boardAfter clock events).faults.get? id with
      | none =>
          rcases lives.begins id fault' found found' with ⟨moment, _, begins⟩
          refine ⟨begins.sound, ?_⟩
          intro stage later
          rw [here, or_iff_right (not_hasBeen found stage)]
          exact begins.stamp_iff later
      | some fault =>
          rcases lives.goes id fault found with ⟨_, there, moment, _, step⟩
          rw [found'] at there
          cases there
          rcases ih id fault found with ⟨sound, history⟩
          refine ⟨sound.step step, ?_⟩
          intro stage later
          rw [here, ← history stage later]
          exact step.stamp_iff sound

theorem ended_after {clock id : Nat} {events : List (Event Request)} {fault : Fault}
    (found : (boardAfter clock events).faults.get? id = some fault) (ended : follows fault.status = [])
    (more : List (Event Request)) : ∃ fault',
      (boardAfter clock (events ++ more)).faults.get? id = some fault' ∧ fault'.status = fault.status := by
  induction more using List.reverseRecOn with
  | nil => exact ⟨fault, by rw [List.append_nil, found], rfl⟩
  | append_singleton more event ih =>
      rcases ih with ⟨fault', found', same⟩
      rcases (boardAfter_concat clock (events ++ more) event).goes id fault' found' with ⟨fault'', found'', _, _, step⟩
      rw [List.append_assoc] at found''
      have stays : fault''.status = fault'.status := step.status_of_ended (by
        show follows fault'.status = []
        rw [same, ended])
      exact ⟨fault'', found'', stays.trans same⟩

/-- The law of the stamps, of every fault. -/
def EveryFaultLived (clock : Nat) (events : List (Event Request)) : Prop :=
  ∀ id fault, (boardAfter clock events).faults.get? id = some fault -> Lived clock events id fault

/-- **The life of a fault.**  Whatever requests cross, and wherever each is lost, the
stamps of every fault record its history in order, a cancelled fault had not been
resolved, and the end of a fault is final. -/
theorem fault_lifecycle (clock : Nat) (events : List (Event Request)) : EveryFaultLived clock events := by
  intro id fault found
  rcases sound_after clock events id fault found with ⟨sound, history⟩
  refine ⟨history, sound.agrees, sound.ordered, (orderly_deskAfter clock events).within id fault found, ?_⟩
  intro ended
  apply ended_after found
  rcases ended with closed | cancelled
  · rw [closed]
    rfl
  · rw [cancelled]
    rfl

end Faults
end Shiftlush
