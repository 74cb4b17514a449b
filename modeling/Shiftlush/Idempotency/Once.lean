import Shiftlush.Idempotency.Moves

namespace Shiftlush
namespace Idempotency

open Transitions

/-!
# Done once

Who has updated the row holds it as it was, so the row he completes is his
pending reservation.  From there: while a row is stored and unexpired, at most
one handler's work is committed for it, and a completed row is only replayed.
-/

/-- The clock reading a stage goes by. -/
def Stage.reading : Stage -> Nat
  | .stamping _ now => now
  | .inserting _ now _ => now
  | .looking _ now => now
  | .taking _ now _ _ => now
  | _ => 0

theorem Stage.reading_of_isIdle {stage : Stage} (idle : stage.isIdle = true) : stage.reading = 0 := by
  cases stage with
  | stamping attempt now => cases idle
  | inserting attempt now stamp => cases idle
  | looking attempt now => cases idle
  | taking attempt now pk candidate => cases idle
  | _ => rfl

theorem reading_look {row : Option IdempotencyKey} {request : Request} {attempt now : Nat} :
    (look row request attempt now).reading ≤ now ∧
      (look row request attempt now).isCommitting = false := by
  unfold look
  split
  · split
    · exact ⟨Nat.zero_le _, rfl⟩
    · exact ⟨Nat.zero_le _, rfl⟩
  · split
    · exact ⟨Nat.le_refl _, rfl⟩
    · split
      · exact ⟨Nat.zero_le _, rfl⟩
      · split
        · exact ⟨Nat.zero_le _, rfl⟩
        · split
          · exact ⟨Nat.zero_le _, rfl⟩
          · exact ⟨Nat.le_refl _, rfl⟩

/-- The row is held exactly by a thread about to commit, as its reservation. -/
structure Sane (m : Machine) : Prop where
  held : ∀ i, m.holder = some i -> ∃ thread reservation response expiresAt row, m.At i thread ∧
    thread.stage = .committing reservation response expiresAt ∧ m.row = some row ∧
      reservation.mine row = true
  committing : ∀ i thread, m.At i thread -> thread.stage.isCommitting = true -> m.holder = some i
  readings : ∀ i thread, m.At i thread -> thread.stage.reading ≤ m.clock

namespace Sane

theorem empty : Sane .empty where
  held i holds := by cases holds
  committing i thread here := by cases here
  readings i thread here := by cases here

variable {m m' : Machine} {i : Nat} {thread : Thread} {stage : Stage}

/-- A thread that moves to where it is not about to commit leaves the others that are. -/
theorem committing_set (after : stage.isCommitting = false)
    (threads : m'.threads = m.threads.set i { thread with stage := stage }) {j : Nat} {other : Thread}
    (at_j : m'.At j other) (waits : other.stage.isCommitting = true) : j ≠ i ∧ m.At j other := by
  unfold Machine.At at at_j
  rw [threads] at at_j
  rcases Machine.at_set at_j with ⟨_, same⟩ | before
  · subst same
    exact absurd waits (Bool.eq_false_iff.mp after)
  · exact before

theorem readings_set (sane : Sane m) (reading : stage.reading ≤ m.clock)
    (threads : m'.threads = m.threads.set i { thread with stage := stage }) (clock : m'.clock = m.clock) :
    ∀ j other, m'.At j other -> other.stage.reading ≤ m'.clock := by
  intro j other at_j
  unfold Machine.At at at_j
  rw [threads] at at_j
  rw [clock]
  rcases Machine.at_set at_j with ⟨_, same⟩ | ⟨_, before⟩
  · subst same
    exact reading
  · exact sane.readings j other before

/-- A thread moves, and the row stays as it is for its holder. -/
theorem moved (sane : Sane m) (here : m.At i thread)
    (before : thread.stage.isCommitting = false) (after : stage.isCommitting = false)
    (reading : stage.reading ≤ m.clock)
    (threads : m'.threads = m.threads.set i { thread with stage := stage })
    (clock : m'.clock = m.clock) (holder : m'.holder = m.holder)
    (row : m.holder ≠ none -> m'.row = m.row) : Sane m' where
  held j holds := by
    rw [holder] at holds
    rcases sane.held j holds with ⟨other, reservation, response, expiresAt, r, at_j, other_stage, found, mine⟩
    have different : i ≠ j := by
      intro same
      subst same
      have both := Option.some.inj (at_j.symm.trans here)
      rw [← both, other_stage] at before
      cases before
    refine ⟨other, reservation, response, expiresAt, r, ?_, other_stage, ?_, mine⟩
    · unfold Machine.At
      rw [threads, List.getElem?_set_ne different]
      exact at_j
    · rw [row (by rw [holds]; exact Option.some_ne_none j)]
      exact found
  committing j other at_j waits := by
    have before := committing_set after threads at_j waits
    exact holder.trans (sane.committing j other before.2 waits)
  readings := sane.readings_set reading threads clock

/-- A thread moves, and nobody holds the row any more. -/
theorem freed (sane : Sane m) (only : ∀ j, m.holder = some j -> j = i)
    (after : stage.isCommitting = false) (reading : stage.reading ≤ m.clock)
    (threads : m'.threads = m.threads.set i { thread with stage := stage })
    (clock : m'.clock = m.clock) (holder : m'.holder = none) : Sane m' where
  held j holds := by
    rw [holder] at holds
    cases holds
  committing j other at_j waits := by
    have before := committing_set after threads at_j waits
    exact absurd (only j (sane.committing j other before.2 waits)) before.1
  readings := sane.readings_set reading threads clock

theorem only_holder (sane : Sane m) (here : m.At i thread) (waits : thread.stage.isCommitting = true)
    (j : Nat) (holds : m.holder = some j) : j = i := by
  rw [sane.committing i thread here waits] at holds
  exact (Option.some.inj holds).symm

theorem moves {retention : String -> Nat} (sane : Sane m) (moves : m.Moves retention m') :
    Sane m' := by
  have idle : ∀ {stage : Stage}, stage.isIdle = true -> stage.reading ≤ m.clock :=
    fun idle => Stage.reading_of_isIdle idle ▸ Nat.zero_le _
  cases moves with
  | still later =>
      exact ⟨sane.held, sane.committing, fun i thread here =>
        Nat.le_trans (sane.readings i thread here) later⟩
  | arrived request =>
      refine ⟨?_, ?_, ?_⟩
      · intro j holds
        rcases sane.held j holds with ⟨other, reservation, response, expiresAt, r, at_j, rest⟩
        refine ⟨other, reservation, response, expiresAt, r, ?_, rest⟩
        exact (List.getElem?_append_left (List.getElem?_eq_some_iff.mp at_j).1).trans at_j
      · intro j other at_j waits
        rcases Machine.at_concat at_j with at_j | same
        · exact sane.committing j other at_j waits
        · subst same
          cases waits
      · intro j other at_j
        rcases Machine.at_concat at_j with at_j | same
        · exact sane.readings j other at_j
        · subst same
          exact Nat.zero_le _
  | readNow here stage =>
      exact sane.moved here (by rw [stage]; rfl) rfl (Nat.le_refl _) rfl rfl rfl (fun _ => rfl)
  | @readStamp i thread attempt now here stage =>
      have reading := sane.readings i thread here
      rw [stage] at reading
      have reading : (Stage.inserting attempt now m.clock).reading ≤ m.clock := reading
      exact sane.moved here (by rw [stage]; rfl) rfl reading rfl rfl rfl (fun _ => rfl)
  | @refusedInsert i thread attempt now stamp here stage =>
      have reading := sane.readings i thread here
      rw [stage] at reading
      have reading : (Stage.looking attempt now).reading ≤ m.clock := reading
      exact sane.moved here (by rw [stage]; rfl) rfl reading rfl rfl rfl (fun _ => rfl)
  | inserted here stage empty =>
      refine sane.moved here (by rw [stage]; rfl) rfl (Nat.zero_le _) rfl rfl rfl ?_
      intro holds
      rcases Option.ne_none_iff_exists'.mp holds with ⟨j, holds⟩
      rcases sane.held j holds with ⟨_, _, _, _, _, _, _, found, _⟩
      rw [empty] at found
      cases found
  | looked here stage =>
      have reading := sane.readings _ _ here
      rw [stage] at reading
      exact sane.moved here (by rw [stage]; rfl) reading_look.2 (Nat.le_trans reading_look.1 reading)
        rfl rfl rfl (fun _ => rfl)
  | taken here stage found free admits =>
      exact sane.moved here (by rw [stage]; rfl) rfl (Nat.zero_le _) rfl rfl rfl
        (fun holds => absurd free holds)
  | handled response here stage =>
      exact sane.moved here (by rw [stage]; rfl) rfl (Nat.zero_le _) rfl rfl rfl (fun _ => rfl)
  | stored here stage =>
      exact sane.moved here (by rw [stage]; rfl) rfl (Nat.zero_le _) rfl rfl rfl (fun _ => rfl)
  | @held i thread reservation response expiresAt row here stage found mine free =>
      refine ⟨?_, ?_, ?_⟩
      · intro j holds
        cases holds
        refine ⟨{ thread with stage := .committing reservation response expiresAt }, reservation,
          response, expiresAt, row, ?_, rfl, found, mine⟩
        exact List.getElem?_set_self (List.getElem?_eq_some_iff.mp here).1
      · intro j other at_j waits
        rcases Machine.at_set at_j with ⟨same, _⟩ | ⟨_, at_j⟩
        · exact congrArg some same.symm
        · rw [sane.committing j other at_j waits] at free
          cases free
      · exact sane.readings_set (Nat.zero_le _) rfl rfl
  | committed here stage =>
      exact sane.freed (sane.only_holder here (by rw [stage]; rfl)) rfl (Nat.zero_le _) rfl rfl rfl
  | dropped here waits after =>
      exact sane.freed (sane.only_holder here waits) (Stage.isCommitting_of_isIdle after) (idle after)
        rfl rfl rfl
  | ended here before after =>
      exact sane.moved here before (Stage.isCommitting_of_isIdle after) (idle after) rfl rfl rfl
        (fun _ => rfl)
  | released here before after free =>
      exact sane.moved here before (Stage.isCommitting_of_isIdle after) (idle after) rfl rfl rfl
        (fun holds => absurd free holds)
  | purged free =>
      refine ⟨?_, sane.committing, sane.readings⟩
      intro j holds
      have holds : m.holder = some j := holds
      rw [free] at holds
      cases holds

end Sane

end Idempotency
end Shiftlush
