import Shiftlush.Maintenance.PlanRows

namespace Shiftlush
namespace Maintenance

open Calendar (Date monthBounds)

/-!
# What a change of a visit does

Recording, editing and deleting a visit differ in the visits they leave.  What
follows is the same: the lifts concerned are recalculated and the rows concerned
synchronised.
-/

variable {v v' : Plan}

/-! ## Recalculating a lift -/

/-- A row with a new date, or as it was. -/
theorem redated_spec (v : Plan) (elevator : Nat) (row : PlannedVisit) :
    (∃ day, v.redated elevator row = { row with dueDate := day }) ∧
    (row.elevator ≠ elevator ∨ row.status ≠ .planned -> v.redated elevator row = row) ∧
    ∀ lift, v.elevators.get? elevator = some lift -> row.elevator = elevator -> row.status = .planned ->
      row.manuallyEdited = false -> v.today.month ≤ row.period ->
      (v.redated elevator row).dueDate = dueDateIn row.period lift.nextMaintenanceDate := by
  unfold Plan.redated
  cases v.elevators.get? elevator with
  | none =>
      refine ⟨⟨row.dueDate, rfl⟩, fun _ => rfl, ?_⟩
      intro lift found
      cases found
  | some lift =>
      dsimp only
      split_ifs with here
      · refine ⟨⟨_, rfl⟩, ?_, ?_⟩
        · rintro (other | closed)
          · exact absurd here.1 other
          · exact absurd here.2.1 closed
        · intro lift' found _ _ _ _
          cases found
          rfl
      · refine ⟨⟨row.dueDate, rfl⟩, fun _ => rfl, ?_⟩
        intro lift' _ same open_ unedited current
        exact absurd ⟨same, open_, unedited, current⟩ here

/-- What the recalculation of a lift does. -/
theorem recalculate_spec (v : Plan) (elevator : Nat) :
    (v.recalculateNextMaintenance elevator).today = v.today ∧
    (v.recalculateNextMaintenance elevator).visits = v.visits ∧
    (v.recalculateNextMaintenance elevator).elevators = v.elevators.update elevator (v.reckoned elevator) ∧
    (v.recalculateNextMaintenance elevator).planned = v.planned.map (fun r =>
      (r.1, Plan.redated { v with elevators := v.elevators.update elevator (v.reckoned elevator) } elevator r.2)) := by
  rcases refresh_spec { v with elevators := v.elevators.update elevator (v.reckoned elevator) } elevator with
    ⟨record, planned⟩
  exact ⟨record.today, record.visits, record.elevators, planned⟩

theorem reckoned_interval (v : Plan) (elevator : Nat) (lift : Elevator) :
    (v.reckoned elevator lift).maintenanceIntervalDays = lift.maintenanceIntervalDays := by
  unfold Plan.reckoned
  cases latest (v.completedOf elevator) with
  | none => rfl
  | some visit => rfl

theorem nextId_refresh (v : Plan) (elevator : Nat) : (v.refreshPlannedDueDates elevator).nextId = v.nextId := by
  unfold Plan.refreshPlannedDueDates
  cases v.elevators.get? elevator with
  | none => rfl
  | some lift => rfl

/-- Only dates differ, of lifts and of open rows. -/
structure Plan.Redates (v w : Plan) : Prop where
  today : w.today = v.today
  nextId : w.nextId = v.nextId
  visits : w.visits = v.visits
  intervals : ∀ elevator, (w.elevators.get? elevator).map Elevator.maintenanceIntervalDays =
    (v.elevators.get? elevator).map Elevator.maintenanceIntervalDays
  rows : ∀ r ∈ w.planned, ∃ r' ∈ v.planned, ∃ day, r.2 = { r'.2 with dueDate := day }
  closed : ∀ r, r.2.status ≠ .planned -> (r ∈ w.planned ↔ r ∈ v.planned)

theorem Plan.Redates.trans {u v w : Plan} (first : u.Redates v) (second : v.Redates w) : u.Redates w where
  today := second.today.trans first.today
  nextId := second.nextId.trans first.nextId
  visits := second.visits.trans first.visits
  intervals := fun elevator => (second.intervals elevator).trans (first.intervals elevator)
  rows := by
    intro r mem
    rcases second.rows r mem with ⟨r', mem', day, eq⟩
    rcases first.rows r' mem' with ⟨r'', mem'', day', eq'⟩
    exact ⟨r'', mem'', day, by rw [eq, eq']⟩
  closed := fun r status => (second.closed r status).trans (first.closed r status)

theorem redates_recalculate (v : Plan) (elevator : Nat) : v.Redates (v.recalculateNextMaintenance elevator) := by
  rcases recalculate_spec v elevator with ⟨today, visits, elevators, planned⟩
  have row := redated_spec { v with elevators := v.elevators.update elevator (v.reckoned elevator) } elevator
  refine ⟨today, nextId_refresh _ elevator, visits, ?_, ?_, ?_⟩
  · intro other
    rw [elevators, Rows.get?_update]
    split_ifs with same
    · rw [same, Option.map_map]
      exact congrArg (fun f => Option.map f (v.elevators.get? elevator)) (funext (reckoned_interval v elevator))
    · rfl
  · intro r mem
    rw [planned] at mem
    rcases List.mem_map.mp mem with ⟨r', listed, rfl⟩
    rcases (row r'.2).1 with ⟨day, eq⟩
    exact ⟨r', listed, day, eq⟩
  · intro r status
    rw [planned, List.mem_map]
    constructor
    · rintro ⟨r', listed, rfl⟩
      rcases (row r'.2).1 with ⟨day, eq⟩
      have closed : r'.2.status ≠ .planned := by
        dsimp only at status
        rw [eq] at status
        exact status
      rw [(row r'.2).2.1 (Or.inr closed)]
      exact listed
    · intro listed
      exact ⟨r, listed, Prod.ext rfl ((row r.2).2.1 (Or.inr status))⟩

namespace Plan

/-- A lift recalculated, and another if it is another. -/
def recalculateBoth (v : Plan) (elevator other : Nat) : Plan :=
  if other = elevator then v.recalculateNextMaintenance elevator
  else (v.recalculateNextMaintenance elevator).recalculateNextMaintenance other

end Plan

theorem redates_recalculateBoth (v : Plan) (elevator other : Nat) : v.Redates (v.recalculateBoth elevator other) := by
  have first := redates_recalculate v elevator
  unfold Plan.recalculateBoth
  split_ifs
  · exact first
  · exact first.trans (redates_recalculate _ other)

/-! ## Synchronising rows -/

/-- The row with the status and the link its visits give it. -/
def Plan.recomputed (v : Plan) (row : PlannedVisit) : PlannedVisit :=
  if row.status = .cancelled then row
  else { row with
    status := (v.outcome row.elevator row.period).1
    visit := (v.outcome row.elevator row.period).2 }

/-- The visit is, or was, of the lift and the month. -/
def Concerns (visit : Visit) (before : Option (Nat × Date)) (elevator : Nat) (period : Int) : Prop :=
  (elevator = visit.elevator ∧ period = visit.visitDate.month) ∨
    ∃ was, before = some was ∧ elevator = was.1 ∧ period = was.2.month

theorem synced_eq {elevator : Nat} {period : Int} {row : PlannedVisit} (lift : row.elevator = elevator)
    (month : row.period = period) : v.synced elevator period row = v.recomputed row := by
  unfold Plan.synced Plan.recomputed
  by_cases cancelled : row.status = .cancelled
  · simp [cancelled]
  · simp [cancelled, lift, month]

/-- The rows that a visit concerns are computed again, and the others left. -/
theorem syncPlan_spec (v : Plan) (visit : Visit) (before : Option (Nat × Date)) :
    v.SameRecord (v.syncPlanForVisit visit before) ∧
    ∃ g : PlannedVisit -> PlannedVisit, (v.syncPlanForVisit visit before).planned = v.planned.map (fun r => (r.1, g r.2)) ∧
      ∀ row : PlannedVisit, (Concerns visit before row.elevator row.period -> g row = v.recomputed row) ∧
        (¬ Concerns visit before row.elevator row.period -> g row = row) := by
  have first := sync_spec v visit.elevator visit.visitDate
  have alone (covered : ∀ was, before = some was ->
      was.1 = visit.elevator ∧ was.2.month = visit.visitDate.month) (row : PlannedVisit) :
      (Concerns visit before row.elevator row.period ->
        v.synced visit.elevator visit.visitDate.month row = v.recomputed row) ∧
      (¬ Concerns visit before row.elevator row.period ->
        v.synced visit.elevator visit.visitDate.month row = row) := by
    constructor
    · rintro (here | ⟨was, left, lift, month⟩)
      · exact synced_eq here.1 here.2
      · rcases covered was left with ⟨sameLift, sameMonth⟩
        exact synced_eq (lift.trans sameLift) (month.trans sameMonth)
    · intro outside
      exact synced_other (fun here => outside (Or.inl here))
  unfold Plan.syncPlanForVisit
  cases before with
  | none => exact ⟨first.1, _, first.2, alone (fun _ same => by cases same)⟩
  | some was =>
      dsimp only
      split_ifs with same
      · exact ⟨first.1, _, first.2, alone (fun _ left => by cases left; exact same)⟩
      · have second := sync_spec (v.syncPlannedVisit visit.elevator visit.visitDate) was.1 was.2
        have there (row : PlannedVisit) : (v.syncPlannedVisit visit.elevator visit.visitDate).synced was.1 was.2.month row =
            v.synced was.1 was.2.month row := by
          unfold Plan.synced
          rw [outcome_congr first.1.visits]
        refine ⟨first.1.trans second.1, fun row => v.synced was.1 was.2.month
          (v.synced visit.elevator visit.visitDate.month row), ?_, ?_⟩
        · rw [second.2, first.2, List.map_map]
          apply List.map_congr_left
          intro r _
          rw [Function.comp_apply, there]
        · intro row
          dsimp only
          by_cases here : row.elevator = visit.elevator ∧ row.period = visit.visitDate.month
          · have keys := keyed_synced v visit.elevator visit.visitDate.month row
            refine ⟨fun _ => ?_, fun outside => absurd (Or.inl here) outside⟩
            rw [synced_other, synced_eq here.1 here.2]
            rw [keys.1, keys.2, here.1, here.2]
            rintro ⟨lift, month⟩
            exact same ⟨lift.symm, month.symm⟩
          · rw [synced_other here]
            constructor
            · rintro (here' | ⟨_, left, lift, month⟩)
              · exact absurd here' here
              · cases left
                exact synced_eq lift month
            · intro outside
              exact synced_other (fun there' => outside (Or.inr ⟨was, rfl, there'⟩))

theorem nextId_syncPlan (v : Plan) (visit : Visit) (before : Option (Nat × Date)) :
    (v.syncPlanForVisit visit before).nextId = v.nextId := by
  unfold Plan.syncPlanForVisit
  cases before with
  | none => rfl
  | some was =>
      dsimp only
      split_ifs
      · rfl
      · rfl

theorem recomputed_keys (v : Plan) : Keyed v.recomputed := by
  intro row
  unfold Plan.recomputed
  split_ifs
  · exact ⟨rfl, rfl⟩
  · exact ⟨rfl, rfl⟩

/-! ## The requests -/

namespace Plan

/-- What follows a change of visits: of a visit as it is, and as it was if it was
another. -/
def follow (saved : Plan) (visit : Visit) (was : Option Visit) : Plan :=
  (saved.recalculateBoth visit.elevator ((was.map Visit.elevator).getD visit.elevator)).syncPlanForVisit visit
    (was.map (fun old => (old.elevator, old.visitDate)))

/-- The plan with its visits changed, one of them. -/
structure Moves (v saved : Plan) (visit : Visit) (was : Option Visit) : Prop where
  today : saved.today = v.today
  elevators : saved.elevators = v.elevators
  planned : saved.planned = v.planned
  others : ∀ p : Visit -> Bool, p visit = false -> (∀ old, was = some old -> p old = false) ->
    saved.visits.filter (fun r => p r.2) = v.visits.filter (fun r => p r.2)

end Plan

theorem visitsIn_eq (v : Plan) (elevator : Nat) (period : Int) : v.visitsIn elevator period =
    v.visits.filter (fun r => decide (r.2.elevator = elevator ∧ r.2.visitDate.month = period)) := by
  apply List.filter_congr
  intro r _
  rw [decide_eq_decide, Calendar.within_monthBounds_iff]

section Moves

variable {saved : Plan} {visit : Visit} {was : Option Visit}

theorem Plan.Moves.visitsIn (moves : v.Moves saved visit was) {elevator : Nat} {period : Int}
    (outside : ¬ Concerns visit (was.map (fun old => (old.elevator, old.visitDate))) elevator period) :
    saved.visitsIn elevator period = v.visitsIn elevator period := by
  rw [visitsIn_eq, visitsIn_eq]
  apply moves.others (fun other => decide (other.elevator = elevator ∧ other.visitDate.month = period))
  · apply decide_eq_false
    rintro ⟨lift, month⟩
    exact outside (Or.inl ⟨lift.symm, month.symm⟩)
  · rintro old rfl
    apply decide_eq_false
    rintro ⟨lift, month⟩
    exact outside (Or.inr ⟨_, rfl, lift.symm, month.symm⟩)

theorem Plan.Moves.completedOf (moves : v.Moves saved visit was) {elevator : Nat} (here : elevator ≠ visit.elevator)
    (there : elevator ≠ (was.map Visit.elevator).getD visit.elevator) :
    saved.completedOf elevator = v.completedOf elevator := by
  apply moves.others (fun other => decide (other.elevator = elevator) && decide (other.status = .completed))
  · rw [decide_eq_false (fun same => here same.symm), Bool.false_and]
  · rintro old rfl
    rw [decide_eq_false (fun same => there same.symm), Bool.false_and]

end Moves

theorem getElevator_ok {elevator : Nat} {lift : Elevator} (found : v.getElevator elevator = .ok lift) :
    v.elevators.get? elevator = some lift := by
  unfold Plan.getElevator at found
  split at found
  · rename_i same
    cases found
    exact same
  · cases found

theorem follow_alone (saved : Plan) (visit : Visit) : saved.follow visit none =
    (saved.recalculateNextMaintenance visit.elevator).syncPlanForVisit visit none := by
  unfold Plan.follow Plan.recalculateBoth
  simp

theorem recordVisit_ok {visit : Visit} (done : v.recordVisit visit = .ok v') :
    (v.elevators.get? visit.elevator).isSome = true ∧
    v' = Plan.follow { v with visits := v.visits.insert v.nextId visit, nextId := v.nextId + 1 } visit none := by
  unfold Plan.recordVisit at done
  rcases bind_ok.mp done with ⟨lift, there, done⟩
  rcases bind_ok.mp done with ⟨_, _, done⟩
  cases done
  rw [follow_alone, getElevator_ok there]
  exact ⟨rfl, rfl⟩

theorem moves_recordVisit (v : Plan) (visit : Visit) :
    v.Moves { v with visits := v.visits.insert v.nextId visit, nextId := v.nextId + 1 } visit none := by
  refine ⟨rfl, rfl, rfl, ?_⟩
  intro p outside _
  unfold Rows.insert
  dsimp only
  rw [List.filter_append, List.filter_cons_of_neg (by rw [outside]; exact Bool.false_ne_true), List.filter_nil,
    List.append_nil]

theorem editVisit_ok {id : Nat} {changes : VisitChanges} (done : v.editVisit id changes = .ok v') :
    ∃ visit, v.visits.get? id = some visit ∧ (v.elevators.get? (changes.apply visit).elevator).isSome = true ∧
    ((changes.apply visit).contract, (changes.apply visit).elevator) ∈ v.lines ∧
    v' = Plan.follow { v with visits := v.visits.update id (fun _ => changes.apply visit) } (changes.apply visit)
      (some visit) := by
  unfold Plan.editVisit at done
  cases found : v.visits.get? id with
  | none =>
      rw [found] at done
      cases done
  | some visit =>
      rw [found] at done
      dsimp only at done
      rcases bind_ok.mp done with ⟨lift, there, done⟩
      rcases bind_ok.mp done with ⟨_, covered, done⟩
      cases done
      refine ⟨visit, rfl, by rw [getElevator_ok there, Option.isSome_some], ?_, rfl⟩
      unfold Plan.ensureActiveContract at covered
      split at covered
      · rename_i listed
        exact listed
      · cases covered

theorem moves_editVisit (distinct : v.visits.Distinct) {id : Nat} {visit : Visit}
    (found : v.visits.get? id = some visit) (new : Visit) :
    v.Moves { v with visits := v.visits.update id (fun _ => new) } new (some visit) := by
  refine ⟨rfl, rfl, rfl, ?_⟩
  intro p outside before
  dsimp only
  apply Rows.filter_update
  intro row mem
  have same : row = visit := by
    have listed := Rows.get?_of_mem distinct mem
    rw [found] at listed
    exact (Option.some.inj listed).symm
  exact ⟨by rw [same]; exact before visit rfl, outside⟩

theorem deleteVisit_ok {id : Nat} (done : v.deleteVisit id = .ok v') : ∃ visit, v.visits.get? id = some visit ∧
    v' = Plan.follow { v with visits := v.visits.filter (fun r => decide (r.1 ≠ id)) } visit none := by
  unfold Plan.deleteVisit at done
  cases found : v.visits.get? id with
  | none =>
      rw [found] at done
      cases done
  | some visit =>
      rw [found] at done
      cases done
      exact ⟨visit, rfl, (follow_alone _ visit).symm⟩

theorem moves_deleteVisit (distinct : v.visits.Distinct) {id : Nat} {visit : Visit}
    (found : v.visits.get? id = some visit) :
    v.Moves { v with visits := v.visits.filter (fun r => decide (r.1 ≠ id)) } visit none := by
  refine ⟨rfl, rfl, rfl, ?_⟩
  intro p outside _
  dsimp only
  rw [List.filter_filter]
  apply List.filter_congr
  intro r mem
  by_cases deleted : r.1 = id
  · have same : r.2 = visit := by
      have listed := Rows.get?_of_mem distinct mem
      rw [deleted, found] at listed
      exact (Option.some.inj listed).symm
    rw [same, outside, Bool.false_and]
  · simp [deleted]

/-! ## Edits of planned rows -/

/-- Rows keep what they are, and those that change are marked. -/
structure Plan.Edits (v v' : Plan) : Prop where
  record : v.SameRecord v'
  nextId : v'.nextId = v.nextId
  keys : v'.planned.map (fun r => (r.2.elevator, r.2.period)) = v.planned.map (fun r => (r.2.elevator, r.2.period))
  rows : ∀ r' ∈ v'.planned, ∃ r ∈ v.planned, r'.2.elevator = r.2.elevator ∧ r'.2.period = r.2.period ∧
    r'.2.status = r.2.status ∧ r'.2.visit = r.2.visit ∧ (r'.2.manuallyEdited = true ∨ r'.2 = r.2)

/-- An edit that gives each row its own again, or marks it. -/
theorem edits_map {f : Nat × PlannedVisit -> Nat × PlannedVisit}
    (turns : ∀ r, f r = r ∨ ∃ technician plannedDate,
      f r = (r.1, { r.2 with technician := technician, plannedDate := plannedDate, manuallyEdited := true })) :
    v.Edits { v with planned := v.planned.map f } := by
  refine ⟨⟨rfl, rfl, rfl, rfl, rfl⟩, rfl, ?_, ?_⟩
  · apply keys_map
    intro r
    rcases turns r with same | ⟨technician, plannedDate, marked⟩
    · rw [same]
      exact ⟨rfl, rfl⟩
    · rw [marked]
      exact ⟨rfl, rfl⟩
  · intro r' mem
    rcases List.mem_map.mp mem with ⟨r, listed, rfl⟩
    refine ⟨r, listed, ?_⟩
    rcases turns r with same | ⟨technician, plannedDate, marked⟩
    · rw [same]
      exact ⟨rfl, rfl, rfl, rfl, Or.inr rfl⟩
    · rw [marked]
      exact ⟨rfl, rfl, rfl, rfl, Or.inl rfl⟩

theorem editPlannedVisit_ok {id : Nat} {changes : PlannedVisitChanges} (done : v.editPlannedVisit id changes = .ok v') :
    v.Edits v' := by
  unfold Plan.editPlannedVisit at done
  split at done
  · cases done
  · rcases bind_ok.mp done with ⟨_, _, done⟩
    cases done
    apply edits_map
    intro r
    split_ifs with here
    · exact Or.inr ⟨changes.technician.getD r.2.technician, changes.plannedDate.getD r.2.plannedDate, by rw [here]; rfl⟩
    · exact Or.inl rfl

theorem bulkAssign_ok {ids : List Nat} {technician : Nat} (done : v.bulkAssign ids technician = .ok v') :
    v.Edits v' := by
  unfold Plan.bulkAssign at done
  split at done
  · cases done
    apply edits_map
    intro r
    split_ifs
    · exact Or.inr ⟨some technician, r.2.plannedDate, rfl⟩
    · exact Or.inl rfl
  · cases done

end Maintenance
end Shiftlush
