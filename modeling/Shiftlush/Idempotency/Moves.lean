import Shiftlush.Idempotency.Replay

namespace Shiftlush
namespace Idempotency

/-!
# What a step can do

`Moves` lists the effects a step has on the stored row, on who holds it, and on
the request that acts, each with the guard it passed.  The invariants are then
checked once for each of them.
-/

namespace Stage

/-- A stage that holds no reservation, looks for none, and ends with no answer
of the key. -/
def isIdle : Stage -> Bool
  | .reserving _ => true
  | .releasing _ _ => true
  | .deleting _ _ => true
  | .done (.failed _) => true
  | .done (.refused _) => true
  | .lost => true
  | _ => false

/-- The transaction of the handler has updated the key and not ended. -/
def isCommitting : Stage -> Bool
  | .committing _ _ _ => true
  | _ => false

theorem isCommitting_of_isIdle {stage : Stage} (idle : stage.isIdle = true) :
    stage.isCommitting = false := by
  cases stage with
  | committing reservation response expiresAt => cases idle
  | _ => rfl

end Stage

namespace Machine

def At (m : Machine) (i : Nat) (thread : Thread) : Prop := m.threads[i]? = some thread

instance (m : Machine) (i : Nat) (thread : Thread) : Decidable (m.At i thread) :=
  inferInstanceAs (Decidable (_ = _))

theorem at_set {m : Machine} {i : Nat} {thread : Thread} {stage : Stage} {j : Nat} {other : Thread}
    (here : (m.threads.set i { thread with stage := stage })[j]? = some other) :
    (j = i ∧ other = { thread with stage := stage }) ∨ (j ≠ i ∧ m.At j other) :=
  Transitions.slot_set here

theorem at_concat {m : Machine} {j : Nat} {request : Request} {other : Thread}
    (here : (m.threads ++ [⟨request, .reserving 0⟩])[j]? = some other) :
    m.At j other ∨ other = ⟨request, .reserving 0⟩ := by
  rcases Transitions.slot_concat here with ⟨_, same⟩ | before
  · exact Or.inr same
  · exact Or.inl before

inductive Moves (retention : String -> Nat) (m : Machine) : Machine -> Prop where
  /-- Time passes, a purge moves, or a statement waits. -/
  | still {clock purges} : m.clock ≤ clock ->
      Moves retention m { m with clock := clock, purges := purges }
  | arrived (request) :
      Moves retention m { m with threads := m.threads ++ [⟨request, .reserving 0⟩] }
  | readNow {i thread attempt} : m.At i thread -> thread.stage = .reserving attempt ->
      Moves retention m (m.setStage i thread (.stamping attempt m.clock))
  | readStamp {i thread attempt now} : m.At i thread -> thread.stage = .stamping attempt now ->
      Moves retention m (m.setStage i thread (.inserting attempt now m.clock))
  | refusedInsert {i thread attempt now stamp} : m.At i thread ->
      thread.stage = .inserting attempt now stamp ->
      Moves retention m
        { m.setStage i thread (.looking attempt now) with nextPk := m.nextPk + 1 }
  | inserted {i thread attempt now stamp} : m.At i thread ->
      thread.stage = .inserting attempt now stamp -> m.row = none ->
      Moves retention m { m.setStage i thread (.handling ⟨m.nextPk, stamp⟩) with
        row := some (.pending m.nextPk thread.request now stamp (retention thread.request.endpoint))
        nextPk := m.nextPk + 1 }
  | looked {i thread attempt now} : m.At i thread -> thread.stage = .looking attempt now ->
      Moves retention m (m.setStage i thread (look m.row thread.request attempt now))
  | taken {i thread attempt now candidate row} : m.At i thread ->
      thread.stage = .taking attempt now row.pk candidate -> m.row = some row -> m.holder = none ->
      candidate.admits now row = true ->
      Moves retention m { m.setStage i thread (.handling ⟨row.pk, now⟩) with
        row := some (row.takenOver thread.request now (retention thread.request.endpoint)) }
  | handled {i thread reservation} (response) : m.At i thread ->
      thread.stage = .handling reservation ->
      Moves retention m (m.setStage i thread (.storing reservation response))
  | stored {i thread reservation response} : m.At i thread ->
      thread.stage = .storing reservation response ->
      Moves retention m (m.setStage i thread
        (.completing reservation response (m.clock + retention thread.request.endpoint)))
  | held {i thread reservation response expiresAt row} : m.At i thread ->
      thread.stage = .completing reservation response expiresAt -> m.row = some row ->
      reservation.mine row = true -> m.holder = none ->
      Moves retention m { m.setStage i thread (.committing reservation response expiresAt) with
        holder := some i }
  | committed {i thread reservation response expiresAt} : m.At i thread ->
      thread.stage = .committing reservation response expiresAt ->
      Moves retention m { m.setStage i thread (.done (.answered response)) with
        row := m.row.map (·.completed response expiresAt)
        holder := none
        work := m.work ++ [⟨i, thread.request, response⟩] }
  /-- The handler's transaction is rolled back after its update. -/
  | dropped {i thread stage} : m.At i thread -> thread.stage.isCommitting = true ->
      stage.isIdle = true -> Moves retention m { m.setStage i thread stage with holder := none }
  | ended {i thread stage} : m.At i thread -> thread.stage.isCommitting = false ->
      stage.isIdle = true -> Moves retention m (m.setStage i thread stage)
  | released {i thread stage} : m.At i thread -> thread.stage.isCommitting = false ->
      stage.isIdle = true -> m.holder = none ->
      Moves retention m { m.setStage i thread stage with row := none }
  | purged {purges} : m.holder = none ->
      Moves retention m { m with purges := purges, row := none }

variable {retention : String -> Nat} {m : Machine}

theorem Moves.nothing : Moves retention m m := .still (Nat.le_refl _)

theorem holder_none {row : IdempotencyKey} (found : m.row = some row)
    (free : m.isHeld row.pk = false) : m.holder = none := by
  unfold isHeld at free
  rw [found, Option.any_some, decide_eq_true rfl, Bool.and_true] at free
  exact Option.not_isSome_iff_eq_none.mp (Bool.not_eq_true _ ▸ free)

theorem not_isHeld {pk : Nat} (free : ¬ m.isHeld pk = true) : m.isHeld pk = false :=
  Bool.eq_false_iff.mpr free

/-- A deletion by primary key: the row is gone, or it was another one. -/
theorem filter_row (m : Machine) (pk : Nat) :
    m.row.filter (fun row => decide (row.pk ≠ pk)) = m.row ∨
      (m.row.filter (fun row => decide (row.pk ≠ pk)) = none ∧ ∃ row, m.row = some row ∧ row.pk = pk) := by
  cases found : m.row with
  | none => exact Or.inl rfl
  | some row =>
      by_cases same : row.pk = pk
      · right
        refine ⟨?_, row, rfl, same⟩
        rw [Option.filter_some, if_neg]
        simp only [ne_eq, same, not_true_eq_false, decide_false, Bool.false_eq_true, not_false_iff]
      · left
        rw [Option.filter_some, if_pos (decide_eq_true same)]

theorem isIdle_again (attempt : Nat) : (again attempt).isIdle = true := by
  unfold again
  split
  · rfl
  · rfl

theorem act_moves {i : Nat} {thread : Thread} (here : m.At i thread) :
    Moves retention m (m.act retention i thread) := by
  unfold act
  cases stage : thread.stage with
  | reserving attempt => exact .readNow here stage
  | stamping attempt now => exact .readStamp here stage
  | inserting attempt now stamp =>
      dsimp only
      split
      · split
        · exact .nothing
        · exact .refusedInsert here stage
      · exact .inserted here stage (by assumption)
  | looking attempt now => exact .looked here stage
  | taking attempt now pk candidate =>
      have waits : thread.stage.isCommitting = false := by rw [stage]; rfl
      dsimp only
      split
      · exact .nothing
      · rename_i free
        split
        · exact .ended here waits (isIdle_again attempt)
        · rename_i row filtered
          rcases Option.filter_eq_some_iff.mp filtered with ⟨found, admitted⟩
          rcases Bool.and_eq_true_iff.mp admitted with ⟨same, admits⟩
          have same : row.pk = pk := of_decide_eq_true same
          rw [← same] at free stage
          rw [← same]
          exact .taken here stage found (holder_none found (not_isHeld free)) admits
  | handling reservation => exact .nothing
  | storing reservation response => exact .stored here stage
  | completing reservation response expiresAt =>
      have waits : thread.stage.isCommitting = false := by rw [stage]; rfl
      dsimp only
      split
      · exact .nothing
      · rename_i free
        split
        · exact .ended here waits rfl
        · rename_i row filtered
          rcases Option.filter_eq_some_iff.mp filtered with ⟨found, mine⟩
          have same : row.pk = reservation.pk := by
            unfold Reservation.mine at mine
            exact (of_decide_eq_true (Bool.and_eq_true_iff.mp mine).1).1
          rw [← same] at free
          exact .held here stage found mine (holder_none found (not_isHeld free))
  | committing reservation response expiresAt => exact .committed here stage
  | releasing reservation response =>
      have waits : thread.stage.isCommitting = false := by rw [stage]; rfl
      dsimp only
      split
      · exact .ended here waits rfl
      · exact .ended here waits rfl
  | deleting pk response =>
      have waits : thread.stage.isCommitting = false := by rw [stage]; rfl
      dsimp only
      split
      · exact .nothing
      · rename_i free
        rcases m.filter_row pk with same | ⟨gone, row, found, same⟩
        · rw [same]
          exact .ended here waits rfl
        · rw [gone]
          rw [← same] at free
          exact .released here waits rfl (holder_none found (not_isHeld free))
  | done outcome => exact .nothing
  | lost => exact .nothing

theorem handled_moves {i : Nat} {thread : Thread} (here : m.At i thread) (response : Response) :
    Moves retention m (m.handled i thread response) := by
  unfold handled
  cases stage : thread.stage with
  | handling reservation =>
      dsimp only
      split
      · exact .handled response here stage
      · exact .ended here (by rw [stage]; rfl) rfl
  | _ => exact .nothing

theorem raised_moves {i : Nat} {thread : Thread} (here : m.At i thread) :
    Moves retention m (m.raised i thread) := by
  unfold raised
  cases stage : thread.stage with
  | handling reservation => exact .ended here (by rw [stage]; rfl) rfl
  | storing reservation response => exact .ended here (by rw [stage]; rfl) rfl
  | completing reservation response expiresAt => exact .ended here (by rw [stage]; rfl) rfl
  | committing reservation response expiresAt => exact .dropped here (by rw [stage]; rfl) rfl
  | _ => exact .nothing

theorem lose_moves {i : Nat} {thread : Thread} (here : m.At i thread) :
    Moves retention m (m.lose i thread) := by
  unfold lose
  cases stage : thread.stage with
  | done outcome => exact .nothing
  | committing reservation response expiresAt => exact .dropped here (by rw [stage]; rfl) rfl
  | _ => exact .ended here (by rw [stage]; rfl) rfl

theorem purgeAct_moves {j : Nat} {purge : Purge} : Moves retention m (m.purgeAct j purge) := by
  unfold purgeAct
  cases purge with
  | scanning now =>
      dsimp only
      split
      · exact .still (Nat.le_refl _)
      · exact .still (Nat.le_refl _)
  | deleting pk =>
      dsimp only
      split
      · exact .nothing
      · rename_i free
        rcases m.filter_row pk with same | ⟨gone, row, found, same⟩
        · rw [same]
          exact .still (Nat.le_refl _)
        · rw [gone]
          rw [← same] at free
          exact .purged (holder_none found (not_isHeld free))
  | done => exact .nothing

/-- Every step is one of the moves. -/
theorem step_moves (retention : String -> Nat) (m : Machine) (event : Event) :
    Moves retention m (m.step retention event) := by
  cases event with
  | arrive request => exact .arrived request
  | act i =>
      unfold step
      dsimp only
      split
      · exact act_moves (by assumption)
      · exact .nothing
  | handled i response =>
      unfold step
      dsimp only
      split
      · exact handled_moves (by assumption) response
      · exact .nothing
  | raised i =>
      unfold step
      dsimp only
      split
      · exact raised_moves (by assumption)
      · exact .nothing
  | lose i =>
      unfold step
      dsimp only
      split
      · exact lose_moves (by assumption)
      · exact .nothing
  | purge => exact .still (Nat.le_refl _)
  | purgeAct j =>
      unfold step
      dsimp only
      split
      · exact purgeAct_moves
      · exact .nothing
  | tick time => exact .still (Nat.le_add_right _ _)

end Machine

end Idempotency
end Shiftlush
