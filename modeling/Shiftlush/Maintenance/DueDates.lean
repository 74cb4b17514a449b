import Shiftlush.Maintenance.InStep

namespace Shiftlush
namespace Maintenance

open Calendar (Date monthBounds)
open Transitions (run everyStep)

/-!
# Due dates

The date of a lift and the dates of its rows are both kept from its completed
visits.  A recalculation brings those of one lift up to date, rows that are done
apart, so a row that a synchronisation reopens afterwards has the date of the
day it was done.
-/

namespace Plan

variable (v : Plan)

/-- The latest completed visit of a lift plus an interval. -/
def nextOf (elevator maintenanceIntervalDays : Nat) : Option Date :=
  (latest (v.completedOf elevator)).map (fun visit => visit.2.visitDate.addDays maintenanceIntervalDays)

/-- An open row of this month or a later one that nobody has edited. -/
def follows (row : PlannedVisit) : Prop :=
  row.status = .planned ∧ row.manuallyEdited = false ∧ v.today.month ≤ row.period

/-- The dates of a lift and of its rows are those its visits give. -/
structure LiftDated (elevator : Nat) : Prop where
  lift : ∀ lift, v.elevators.get? elevator = some lift ->
    lift.nextMaintenanceDate = v.nextOf elevator lift.maintenanceIntervalDays
  rows : ∀ lift, v.elevators.get? elevator = some lift -> ∀ r ∈ v.planned, r.2.elevator = elevator ->
    v.follows r.2 -> r.2.dueDate = dueDateIn r.2.period lift.nextMaintenanceDate

/-- Every lift has the date its visits give it, and every open row nobody has edited,
of this month or later, the due date its lift gives it. -/
def Dated : Prop := ∀ elevator, v.LiftDated elevator

/-- Every row that is done without a completed visit has the due date it would be
given anew. -/
def reopensDated : Bool := v.planned.all (fun r =>
  decide (r.2.status ≠ .done) || r.2.manuallyEdited || decide (r.2.period < v.today.month) ||
  (v.visitsIn r.2.elevator r.2.period).any isCompleted ||
  match v.elevators.get? r.2.elevator with
  | none => true
  | some lift => decide (r.2.dueDate = dueDateIn r.2.period (v.nextOf r.2.elevator lift.maintenanceIntervalDays)))

/-- The visit may be saved. -/
def accepts (visit : Visit) : Bool :=
  (v.elevators.get? visit.elevator).isSome && (v.ensureActiveContract visit.elevator visit.contract).isOk

/-- An interval is changed of lifts without a completed visit only, and a change of
visits leaves no row to reopen with another due date than it has. -/
def timely (v : Plan) : Event -> Bool
  | .editElevator id days =>
      match v.elevators.get? id with
      | none => true
      | some lift => decide (lift.maintenanceIntervalDays = days) || (latest (v.completedOf id)).isNone ||
          decide (¬ (1 ≤ days ∧ days ≤ 30))
  | .editVisit id changes =>
      match v.visits.get? id with
      | none => true
      | some visit => !v.accepts (changes.apply visit) ||
          reopensDated { v with visits := v.visits.update id (fun _ => changes.apply visit) }
  | .deleteVisit id => reopensDated { v with visits := v.visits.filter (fun r => decide (r.1 ≠ id)) }
  | _ => true

/-- Visits and rows are of lifts there are, and a row that is done has a completed visit. -/
structure Traced : Prop where
  visits : ∀ r ∈ v.visits, r.2.elevator < v.nextId
  rows : ∀ r ∈ v.planned, r.2.elevator < v.nextId
  done : ∀ r ∈ v.planned, r.2.status = .done -> (v.visitsIn r.2.elevator r.2.period).any isCompleted = true

end Plan

variable {v v' : Plan}

/-! ## Recalculating a lift -/

theorem reckoned_eq (v : Plan) (elevator : Nat) (lift : Elevator) :
    (v.reckoned elevator lift).nextMaintenanceDate = v.nextOf elevator lift.maintenanceIntervalDays := by
  unfold Plan.reckoned Plan.nextOf
  cases latest (v.completedOf elevator) with
  | none => rfl
  | some visit => rfl

theorem nextOf_congr {elevator : Nat} (same : v'.completedOf elevator = v.completedOf elevator) (days : Nat) :
    v'.nextOf elevator days = v.nextOf elevator days := by
  unfold Plan.nextOf
  rw [same]

theorem completedOf_congr (same : v'.visits = v.visits) (elevator : Nat) :
    v'.completedOf elevator = v.completedOf elevator := by
  unfold Plan.completedOf
  rw [same]

/-- A recalculated lift is dated. -/
theorem liftDated_recalculate (v : Plan) (elevator : Nat) :
    (v.recalculateNextMaintenance elevator).LiftDated elevator := by
  rcases recalculate_spec v elevator with ⟨today, visits, elevators, planned⟩
  have completed := completedOf_congr visits elevator
  constructor
  · intro lift' found
    rw [elevators, Rows.get?_update_self] at found
    rcases Option.map_eq_some_iff.mp found with ⟨lift, _, rfl⟩
    rw [nextOf_congr completed, reckoned_eq, reckoned_interval]
  · intro lift' found r' mem same follows
    rw [planned] at mem
    rcases List.mem_map.mp mem with ⟨r, listed, rfl⟩
    rcases redated_spec { v with elevators := v.elevators.update elevator (v.reckoned elevator) } elevator r.2 with
      ⟨⟨day, eq⟩, _, dates⟩
    rw [elevators] at found
    unfold Plan.follows at follows
    dsimp only at same follows ⊢
    rw [eq] at same follows
    rw [today] at follows
    rw [(keyed_redated _ elevator r.2).2]
    exact dates lift' found same follows.1 follows.2.1 follows.2.2

/-- The recalculation of a lift leaves the others dated. -/
theorem Plan.LiftDated.recalculate {elevator other : Nat} (dated : v.LiftDated other) (different : other ≠ elevator) :
    (v.recalculateNextMaintenance elevator).LiftDated other := by
  rcases recalculate_spec v elevator with ⟨today, visits, elevators, planned⟩
  have completed := completedOf_congr visits other
  constructor
  · intro lift found
    rw [elevators, Rows.get?_update_of_ne different] at found
    rw [nextOf_congr completed]
    exact dated.lift lift found
  · intro lift found r' mem same follows
    rw [elevators, Rows.get?_update_of_ne different] at found
    rw [planned] at mem
    rcases List.mem_map.mp mem with ⟨r, listed, rfl⟩
    rcases redated_spec { v with elevators := v.elevators.update elevator (v.reckoned elevator) } elevator r.2 with
      ⟨⟨day, eq⟩, kept, _⟩
    have elsewhere : r.2.elevator ≠ elevator := by
      dsimp only at same
      rw [eq] at same
      rw [show r.2.elevator = other from same]
      exact different
    dsimp only at same follows ⊢
    rw [kept (Or.inl elsewhere)] at same follows ⊢
    unfold Plan.follows at follows
    rw [today] at follows
    exact dated.rows lift found r listed same follows

/-- A change of a visit leaves all lifts dated but those it concerns, and these are
recalculated. -/
theorem Plan.Dated.recalculated (dated : v.Dated) {saved : Plan} {visit : Visit} {was : Option Visit}
    (moves : v.Moves saved visit was) :
    (saved.recalculateBoth visit.elevator ((was.map Visit.elevator).getD visit.elevator)).Dated := by
  have untouched (third : Nat) (first : third ≠ visit.elevator)
      (second : third ≠ (was.map Visit.elevator).getD visit.elevator) : saved.LiftDated third := by
    constructor
    · intro lift found
      rw [moves.elevators] at found
      rw [nextOf_congr (moves.completedOf first second)]
      exact (dated third).lift lift found
    · intro lift found r mem same follows
      rw [moves.elevators] at found
      rw [moves.planned] at mem
      unfold Plan.follows at follows
      rw [moves.today] at follows
      exact (dated third).rows lift found r mem same follows
  generalize visit.elevator = elevator at untouched ⊢
  generalize (was.map Visit.elevator).getD elevator = other at untouched ⊢
  intro third
  unfold Plan.recalculateBoth
  split_ifs with same
  · by_cases first : third = elevator
    · rw [first]
      exact liftDated_recalculate saved elevator
    · exact (untouched third first (by rw [same]; exact first)).recalculate first
  · by_cases second : third = other
    · rw [second]
      exact liftDated_recalculate _ other
    · apply Plan.LiftDated.recalculate _ second
      by_cases first : third = elevator
      · rw [first]
        exact liftDated_recalculate saved elevator
      · exact (untouched third first second).recalculate first

/-! ## Rows that reopen -/

/-- A row that a synchronisation reopens. -/
def Plan.reopens (v : Plan) (row : PlannedVisit) : Prop :=
  row.status = .done ∧ row.manuallyEdited = false ∧ v.today.month ≤ row.period ∧
    (v.visitsIn row.elevator row.period).any isCompleted = false

/-- Among dated rows a synchronisation spoils those it reopens with another date. -/
theorem Plan.Dated.syncPlan_iff (dated : v.Dated) (visit : Visit) (before : Option (Nat × Date)) :
    (v.syncPlanForVisit visit before).Dated ↔ ∀ r ∈ v.planned, Concerns visit before r.2.elevator r.2.period ->
      v.reopens r.2 -> ∀ lift, v.elevators.get? r.2.elevator = some lift ->
        r.2.dueDate = dueDateIn r.2.period lift.nextMaintenanceDate := by
  rcases syncPlan_spec v visit before with ⟨record, g, planned, turns⟩
  constructor
  · intro after r mem concerned reopens lift found
    have turned : (r.1, v.recomputed r.2) ∈ (v.syncPlanForVisit visit before).planned := by
      rw [planned, ← (turns r.2).1 concerned]
      exact List.mem_map_of_mem mem
    have open_ : (v.recomputed r.2).status = .planned := by
      unfold Plan.recomputed
      rw [if_neg (by rw [reopens.1]; exact fun same => by cases same)]
      exact outcome_planned.mpr reopens.2.2.2
    have same : (v.recomputed r.2).manuallyEdited = r.2.manuallyEdited ∧
        (v.recomputed r.2).dueDate = r.2.dueDate := by
      unfold Plan.recomputed
      split_ifs
      · exact ⟨rfl, rfl⟩
      · exact ⟨rfl, rfl⟩
    have keys := recomputed_keys v r.2
    have due := (after r.2.elevator).rows lift (by rw [record.elevators]; exact found) _ turned keys.1 (by
      unfold Plan.follows
      rw [same.1, keys.2, record.today]
      exact ⟨open_, reopens.2.1, reopens.2.2.1⟩)
    rw [← same.2, ← keys.2]
    exact due
  · intro reopened elevator
    constructor
    · intro lift found
      rw [record.elevators] at found
      rw [nextOf_congr (completedOf_congr record.visits elevator)]
      exact (dated elevator).lift lift found
    · intro lift found r' mem same follows
      rw [record.elevators] at found
      rw [planned] at mem
      rcases List.mem_map.mp mem with ⟨r, listed, rfl⟩
      unfold Plan.follows at follows
      rw [record.today] at follows
      dsimp only at same follows ⊢
      by_cases concerned : Concerns visit before r.2.elevator r.2.period
      · rw [(turns r.2).1 concerned] at same follows ⊢
        unfold Plan.recomputed at same follows ⊢
        split_ifs at same follows ⊢ with cancelled
        · rw [cancelled] at follows
          cases follows.1
        · dsimp only at same follows ⊢
          cases status : r.2.status with
          | planned => exact (dated elevator).rows lift found r listed same ⟨status, follows.2⟩
          | done =>
              refine reopened r listed concerned ⟨status, follows.2.1, follows.2.2, outcome_planned.mp follows.1⟩ lift ?_
              rw [same]
              exact found
          | cancelled => exact absurd status cancelled
      · rw [(turns r.2).2 concerned] at same follows ⊢
        exact (dated elevator).rows lift found r listed same follows

/-- A change of a visit keeps the dates exactly if the rows it leaves without a
completed visit have the dates they would be given. -/
theorem Plan.Dated.follow_iff (dated : v.Dated) (traced : v.Traced) {saved : Plan} {visit : Visit}
    {was : Option Visit} (moves : v.Moves saved visit was) :
    (saved.follow visit was).Dated ↔ saved.reopensDated = true := by
  have recalculated := dated.recalculated moves
  have redates := redates_recalculateBoth saved visit.elevator ((was.map Visit.elevator).getD visit.elevator)
  unfold Plan.follow
  generalize saved.recalculateBoth visit.elevator ((was.map Visit.elevator).getD visit.elevator) = w at recalculated redates
  have month (elevator : Nat) (period : Int) : w.visitsIn elevator period = saved.visitsIn elevator period := by
    unfold Plan.visitsIn
    rw [redates.visits]
  -- the date of a lift after the recalculation, from the interval it had
  have next (elevator : Nat) {lift lift' : Elevator} (before : saved.elevators.get? elevator = some lift)
      (after : w.elevators.get? elevator = some lift') :
      lift'.nextMaintenanceDate = saved.nextOf elevator lift.maintenanceIntervalDays := by
    have interval := redates.intervals elevator
    rw [before, after] at interval
    have same : lift'.maintenanceIntervalDays = lift.maintenanceIntervalDays := by simpa using interval
    rw [(recalculated elevator).lift lift' after, same, nextOf_congr (completedOf_congr redates.visits elevator)]
  rw [recalculated.syncPlan_iff]
  unfold Plan.reopensDated
  rw [List.all_eq_true]
  constructor
  · intro reopened r mem
    by_cases reopens : saved.reopens r.2
    · have concerned : Concerns visit (was.map (fun old => (old.elevator, old.visitDate))) r.2.elevator r.2.period := by
        by_contra outside
        have there := traced.done r (by rw [← moves.planned]; exact mem) reopens.1
        rw [← moves.visitsIn outside, reopens.2.2.2] at there
        cases there
      have closed : r.2.status ≠ .planned := by
        rw [reopens.1]
        exact fun same => by cases same
      have due := reopened r ((redates.closed r closed).mpr mem) concerned (by
        unfold Plan.reopens
        rw [month, redates.today]
        exact reopens)
      cases found : saved.elevators.get? r.2.elevator with
      | none => simp
      | some lift =>
          have interval := redates.intervals r.2.elevator
          rw [found] at interval
          rcases Option.map_eq_some_iff.mp interval with ⟨lift', found', _⟩
          have right := due lift' found'
          rw [next r.2.elevator found found'] at right
          simp [right]
    · unfold Plan.reopens at reopens
      grind
  · intro right r mem _ reopens lift' found'
    have closed : r.2.status ≠ .planned := by
      rw [reopens.1]
      exact fun same => by cases same
    have listed := (redates.closed r closed).mp mem
    unfold Plan.reopens at reopens
    rw [month, redates.today] at reopens
    have interval := redates.intervals r.2.elevator
    rw [found'] at interval
    rcases Option.map_eq_some_iff.mp interval.symm with ⟨lift, found, _⟩
    have due := right r listed
    rw [reopens.1, reopens.2.1, reopens.2.2.2, found] at due
    have later : ¬ r.2.period < saved.today.month := not_lt.mpr reopens.2.2.1
    simp only [ne_eq, not_true_eq_false, decide_false, later, Bool.or_false, Bool.false_or, decide_eq_true_eq] at due
    rw [due, next r.2.elevator found found']

/-! ## Done rows have their visits -/

theorem empty_traced (today : Date) : (Plan.empty today).Traced where
  visits := fun _ mem => by cases mem
  rows := fun _ mem => by cases mem
  done := fun _ mem => by cases mem

theorem any_congr (same : v'.visits = v.visits) (elevator : Nat) (period : Int) :
    (v'.visitsIn elevator period).any isCompleted = (v.visitsIn elevator period).any isCompleted := by
  unfold Plan.visitsIn
  rw [same]

/-- A recomputed row is done only if there is a completed visit. -/
theorem recomputed_done {row : PlannedVisit} (done : (v.recomputed row).status = .done) :
    (v.visitsIn row.elevator row.period).any isCompleted = true := by
  unfold Plan.recomputed at done
  split_ifs at done with cancelled
  · rw [cancelled] at done
    cases done
  · exact outcome_done.mp done

namespace Plan

theorem Traced.follow (traced : v.Traced) {saved : Plan} {visit : Visit} {was : Option Visit}
    (moves : v.Moves saved visit was) (later : v.nextId ≤ saved.nextId)
    (visits : ∀ r ∈ saved.visits, r.2.elevator < saved.nextId) : (saved.follow visit was).Traced := by
  have redates := redates_recalculateBoth saved visit.elevator ((was.map Visit.elevator).getD visit.elevator)
  unfold Plan.follow
  generalize saved.recalculateBoth visit.elevator ((was.map Visit.elevator).getD visit.elevator) = w at redates
  rcases syncPlan_spec w visit (was.map (fun old => (old.elevator, old.visitDate))) with ⟨record, g, planned, turns⟩
  have next : (w.syncPlanForVisit visit (was.map (fun old => (old.elevator, old.visitDate)))).nextId = saved.nextId :=
    (nextId_syncPlan w visit _).trans redates.nextId
  have kept : (w.syncPlanForVisit visit (was.map (fun old => (old.elevator, old.visitDate)))).visits = saved.visits :=
    record.visits.trans redates.visits
  have keyed : Keyed g := by
    intro row
    by_cases concerned : Concerns visit (was.map (fun old => (old.elevator, old.visitDate))) row.elevator row.period
    · rw [(turns row).1 concerned]
      exact recomputed_keys w row
    · rw [(turns row).2 concerned]
      exact ⟨rfl, rfl⟩
  refine ⟨?_, ?_, ?_⟩
  · rw [kept, next]
    exact visits
  · rw [planned, next]
    intro r'' mem
    rcases List.mem_map.mp mem with ⟨r', listed', rfl⟩
    rcases redates.rows r' listed' with ⟨r, listed, day, eq⟩
    rw [moves.planned] at listed
    dsimp only
    rw [(keyed r'.2).1, eq]
    exact Nat.lt_of_lt_of_le (traced.rows r listed) later
  · rw [planned]
    intro r'' mem done
    rcases List.mem_map.mp mem with ⟨r', listed', rfl⟩
    dsimp only at done ⊢
    rw [(keyed r'.2).1, (keyed r'.2).2, any_congr record.visits]
    by_cases concerned : Concerns visit (was.map (fun old => (old.elevator, old.visitDate))) r'.2.elevator r'.2.period
    · rw [(turns r'.2).1 concerned] at done
      exact recomputed_done done
    · rw [(turns r'.2).2 concerned] at done
      rcases redates.rows r' listed' with ⟨r, listed, day, eq⟩
      rw [moves.planned] at listed
      rw [eq] at done concerned ⊢
      rw [any_congr redates.visits, moves.visitsIn concerned]
      exact traced.done r listed done

theorem Traced.edited (traced : v.Traced) (edits : v.Edits v') : v'.Traced := by
  refine ⟨?_, ?_, ?_⟩
  · rw [edits.record.visits, edits.nextId]
    exact traced.visits
  · intro r' mem
    rcases edits.rows r' mem with ⟨r, listed, lift, _⟩
    rw [lift, edits.nextId]
    exact traced.rows r listed
  · intro r' mem done
    rcases edits.rows r' mem with ⟨r, listed, lift, month, status, _⟩
    rw [any_congr edits.record.visits, lift, month]
    exact traced.done r listed (by rw [← status]; exact done)

end Plan

theorem planRow_done {elevator : Nat} {lift : Elevator} {period : Int}
    (before : ∀ row, v.rowFor elevator period = some row -> row.status = .done ->
      (v.visitsIn elevator period).any isCompleted = true)
    (done : (v.planRow elevator lift period).status = .done) : (v.visitsIn elevator period).any isCompleted = true := by
  unfold Plan.planRow at done
  cases found : v.rowFor elevator period with
  | none =>
      rw [found] at done
      cases done
  | some row =>
      rcases rowOf_some found with ⟨rfl, rfl, _⟩
      rw [found] at done
      have follow := followTheFacts_spec row (dueDateIn row.period lift.nextMaintenanceDate)
        (v.defaultTechnician lift.customer)
      dsimp only [Plan.followed] at done
      generalize followTheFacts row (dueDateIn row.period lift.nextMaintenanceDate)
        (v.defaultTechnician lift.customer) = changed at follow done
      rcases follow with ⟨keptLift, keptMonth, _, _, status, _⟩
      split_ifs at done with edited cancelled
      · exact before row found done
      · rw [synced_eq keptLift keptMonth] at done
        rw [← keptLift, ← keptMonth]
        exact recomputed_done done
      · rw [if_neg cancelled] at status
        exact before row found (by rw [← status]; exact done)

theorem uncovered_done {row : PlannedVisit} (done : (uncovered row).status = .done) : row.status = .done := by
  unfold uncovered at done
  split_ifs at done
  exact done

theorem Plan.Traced.generatePlan (traced : v.Traced) (sound : v.Sound) : v.generatePlan.1.Traced := by
  have record := (generatePlan_spec sound.elevators).1
  have later := nextId_generatePlan v
  refine ⟨?_, ?_, ?_⟩
  · rw [record.visits]
    exact fun r mem => Nat.lt_of_lt_of_le (traced.visits r mem) later
  · refine fun r mem => Nat.lt_of_lt_of_le (generatePlan_rows sound.elevators sound.oneRow
      (J := fun row => row.elevator < v.nextId) traced.rows ?_ ?_ r mem) later
    · intro row known
      unfold uncovered
      split_ifs
      · exact known
      · exact known
    · intro elevator lift period covered _
      rw [(planRow_keys v elevator lift period).1]
      exact sound.elevatorsBelow.of_mem (Rows.mem_of_get? (get?_covered sound.elevators covered))
  · have after := generatePlan_rows sound.elevators sound.oneRow
      (J := fun row => row.status = .done -> (v.visitsIn row.elevator row.period).any isCompleted = true) traced.done
      (fun row before done => by
        have same : uncovered row = row := by
          unfold uncovered at done ⊢
          split_ifs at done ⊢
          rfl
        rw [same]
        exact before (uncovered_done done))
      (fun elevator lift period _ _ done => by
        have keys := planRow_keys v elevator lift period
        rw [keys.1, keys.2]
        refine planRow_done ?_ done
        intro row found closed
        rcases rowOf_some found with ⟨rfl, rfl, id, mem⟩
        exact traced.done (id, row) mem closed)
    intro r mem done
    rw [any_congr record.visits]
    exact after r mem done

namespace Plan

theorem Traced.attempt (traced : v.Traced) (sound : v.Sound) {event : Event} (done : v.attempt event = .ok v') :
    v'.Traced := by
  cases event with
  | dawn day =>
      cases done
      exact ⟨traced.visits, traced.rows, traced.done⟩
  | cover lines =>
      cases done
      exact ⟨traced.visits, traced.rows, traced.done⟩
  | team userCustomers =>
      cases done
      exact ⟨traced.visits, traced.rows, traced.done⟩
  | createElevator customer days =>
      rcases bind_ok.mp done with ⟨_, _, done⟩
      cases done
      exact ⟨fun r mem => Nat.lt_succ_of_lt (traced.visits r mem), fun r mem => Nat.lt_succ_of_lt (traced.rows r mem),
        traced.done⟩
  | editElevator id days =>
      rcases bind_ok.mp done with ⟨_, _, done⟩
      cases done
      exact ⟨traced.visits, traced.rows, traced.done⟩
  | recordVisit visit =>
      rcases recordVisit_ok done with ⟨there, rfl⟩
      refine traced.follow (moves_recordVisit v visit) (Nat.le_succ _) ?_
      intro r mem
      rcases List.mem_append.mp mem with before | new
      · exact Nat.lt_succ_of_lt (traced.visits r before)
      · have last : r = (v.nextId, visit) := by simpa using new
        rw [last]
        exact Nat.lt_succ_of_lt (sound.elevatorsBelow _ there)
  | editVisit id changes =>
      rcases editVisit_ok done with ⟨visit, found, there, _, rfl⟩
      refine traced.follow (moves_editVisit sound.visits found _) (le_refl v.nextId) ?_
      intro r mem
      rcases Rows.mem_update.mp (show r ∈ v.visits.update id (fun _ => changes.apply visit) from mem) with
        ⟨listed, _⟩ | ⟨row, _, rfl⟩
      · exact traced.visits r listed
      · exact sound.elevatorsBelow _ there
  | deleteVisit id =>
      rcases deleteVisit_ok done with ⟨visit, found, rfl⟩
      refine traced.follow (moves_deleteVisit sound.visits found) (le_refl v.nextId) ?_
      exact fun r mem => traced.visits r (List.mem_filter.mp mem).1
  | editPlannedVisit id changes => exact traced.edited (editPlannedVisit_ok done)
  | bulkAssign ids technician => exact traced.edited (bulkAssign_ok done)
  | generatePlan =>
      cases done
      exact traced.generatePlan sound

end Plan

/-! ## One step -/

theorem planRow_dated {elevator : Nat} {lift : Elevator} {period : Int}
    (before : ∀ row, v.rowFor elevator period = some row -> v.follows row ->
      row.dueDate = dueDateIn row.period lift.nextMaintenanceDate)
    (follows : v.follows (v.planRow elevator lift period)) :
    (v.planRow elevator lift period).dueDate = dueDateIn period lift.nextMaintenanceDate := by
  unfold Plan.planRow at follows ⊢
  cases found : v.rowFor elevator period with
  | none => rfl
  | some row =>
      rcases rowOf_some found with ⟨rfl, rfl, _⟩
      rw [found] at follows
      have follow := followTheFacts_spec row (dueDateIn row.period lift.nextMaintenanceDate)
        (v.defaultTechnician lift.customer)
      dsimp only [Plan.followed] at follows ⊢
      generalize followTheFacts row (dueDateIn row.period lift.nextMaintenanceDate)
        (v.defaultTechnician lift.customer) = changed at follow follows ⊢
      rcases follow with ⟨keptLift, keptMonth, _, _, status, due, _⟩
      split_ifs at follows ⊢ with edited cancelled
      · exact before row found follows
      · rw [if_pos cancelled] at status
        have kept : (v.synced row.elevator row.period changed.1).dueDate = changed.1.dueDate := by
          unfold Plan.synced
          split_ifs
          · rfl
          · rfl
        rw [kept]
        exact due status
      · exact due follows.1

namespace Plan

theorem Dated.ofRows (dated : v.Dated) (record : v.SameRecord v')
    (rows : ∀ r ∈ v'.planned, v.follows r.2 -> ∀ lift, v.elevators.get? r.2.elevator = some lift ->
      r.2.dueDate = dueDateIn r.2.period lift.nextMaintenanceDate) : v'.Dated := by
  intro elevator
  constructor
  · intro lift found
    rw [record.elevators] at found
    rw [nextOf_congr (completedOf_congr record.visits elevator)]
    exact (dated elevator).lift lift found
  · intro lift found r mem same follows
    rw [record.elevators] at found
    unfold Plan.follows at follows
    rw [record.today] at follows
    exact rows r mem follows lift (by rw [same]; exact found)

theorem Dated.generatePlan (dated : v.Dated) (sound : v.Sound) : v.generatePlan.1.Dated := by
  refine dated.ofRows (generatePlan_spec sound.elevators).1 ?_
  apply generatePlan_rows sound.elevators sound.oneRow (J := fun row => v.follows row -> ∀ lift,
    v.elevators.get? row.elevator = some lift -> row.dueDate = dueDateIn row.period lift.nextMaintenanceDate)
  · intro r mem follows lift found
    exact (dated r.2.elevator).rows lift found r mem rfl follows
  · intro row before follows lift found
    unfold uncovered at follows found ⊢
    split_ifs at follows found ⊢
    · cases follows.1
    · exact before follows lift found
  · intro elevator lift period covered _ follows lift' found
    have keys := planRow_keys v elevator lift period
    have there := get?_covered sound.elevators covered
    rw [keys.1, there] at found
    cases found
    rw [keys.2]
    refine planRow_dated ?_ follows
    intro row here follows'
    rcases rowOf_some here with ⟨rfl, rfl, id, mem⟩
    exact (dated row.elevator).rows lift there (id, row) mem rfl follows'

theorem Dated.edited (dated : v.Dated) (edits : v.Edits v') : v'.Dated := by
  refine dated.ofRows edits.record ?_
  intro r' mem follows lift found
  rcases edits.rows r' mem with ⟨r, listed, _, _, _, _, marked | same⟩
  · rw [follows.2.1] at marked
    cases marked
  · rw [same] at follows found ⊢
    exact (dated r.2.elevator).rows lift found r listed rfl follows

/-- Days pass, and fewer rows are of this month or a later one. -/
theorem Dated.dawn (dated : v.Dated) (day : Date) : Dated { v with today := max v.today day } := by
  intro elevator
  refine ⟨(dated elevator).lift, ?_⟩
  intro lift found r mem same follows
  refine (dated elevator).rows lift found r mem same ⟨follows.1, follows.2.1, le_trans ?_ follows.2.2⟩
  exact Calendar.Date.month_le_of_ordinal_le (Calendar.Date.le_iff.mp (le_max_left v.today day))

/-- A new lift has neither visits nor rows. -/
theorem Dated.createElevator (dated : v.Dated) (sound : v.Sound) (traced : v.Traced) {lift : Elevator}
    (unvisited : lift.nextMaintenanceDate = none) :
    Dated { v with elevators := v.elevators.insert v.nextId lift, nextId := v.nextId + 1 } := by
  have fresh : v.elevators.get? v.nextId = none := sound.elevatorsBelow.absent le_rfl
  intro elevator
  constructor
  · intro lift' found
    dsimp only at found
    rw [Rows.get?_insert] at found
    cases before : v.elevators.get? elevator with
    | some old =>
        rw [before] at found
        cases found
        exact (dated elevator).lift _ before
    | none =>
        rw [before, Option.none_or] at found
        split_ifs at found with new
        cases found
        have none_ : v.completedOf elevator = [] := by
          unfold completedOf
          rw [List.filter_eq_nil_iff]
          intro r mem
          have lower := traced.visits r mem
          have other : r.2.elevator ≠ elevator := by omega
          simp [other]
        rw [unvisited]
        unfold nextOf
        rw [show completedOf { v with elevators := v.elevators.insert v.nextId lift, nextId := v.nextId + 1 } elevator =
          [] from none_]
        rfl
  · intro lift' found r mem same follows
    have lower := traced.rows r mem
    dsimp only at found
    rw [Rows.get?_insert_of_ne (by omega)] at found
    exact (dated elevator).rows lift' found r mem same follows

/-- A change of an interval is felt by the lift's date if there is one. -/
theorem Dated.editElevator_iff (dated : v.Dated) (id days : Nat) :
    Dated { v with elevators := v.elevators.update id (fun lift => { lift with maintenanceIntervalDays := days }) } ↔
      ∀ lift, v.elevators.get? id = some lift ->
        lift.maintenanceIntervalDays = days ∨ latest (v.completedOf id) = none := by
  constructor
  · intro after lift found
    have there : (v.elevators.update id (fun lift => { lift with maintenanceIntervalDays := days })).get? id =
        some { lift with maintenanceIntervalDays := days } := by
      rw [Rows.get?_update_self, found]
      rfl
    have old := (dated id).lift lift found
    have new := (after id).lift _ there
    dsimp only at new
    rw [old] at new
    cases last : latest (v.completedOf id) with
    | none => exact Or.inr rfl
    | some visit =>
        left
        have same : visit.2.visitDate.addDays lift.maintenanceIntervalDays = visit.2.visitDate.addDays days := by
          unfold nextOf at new
          rw [last] at new
          rw [show latest (completedOf { v with elevators := v.elevators.update id (fun lift =>
            { lift with maintenanceIntervalDays := days }) } id) = some visit from last] at new
          exact Option.some.inj new
        have days_ := congrArg Calendar.Date.ordinal same
        rw [Calendar.Date.ordinal_addDays, Calendar.Date.ordinal_addDays] at days_
        omega
  · intro unfelt elevator
    constructor
    · intro lift' found
      dsimp only at found
      rw [Rows.get?_update] at found
      split_ifs at found with same
      · rcases Option.map_eq_some_iff.mp found with ⟨lift, before, rfl⟩
        rw [same] at before ⊢
        have old := (dated id).lift lift before
        rcases unfelt lift before with interval | none_
        · rw [interval] at old
          exact old
        · unfold nextOf at old ⊢
          rw [none_] at old
          dsimp only
          rw [old, show latest (completedOf { v with elevators := v.elevators.update id (fun lift =>
            { lift with maintenanceIntervalDays := days }) } id) = none from none_]
          rfl
      · exact (dated elevator).lift lift' found
    · intro lift' found r mem lifts follows
      dsimp only at found
      rw [Rows.get?_update] at found
      split_ifs at found with same
      · rcases Option.map_eq_some_iff.mp found with ⟨lift, before, rfl⟩
        rw [same] at before
        exact (dated id).rows lift before r mem (by rw [lifts, same]) follows
      · exact (dated elevator).rows lift' found r mem lifts follows

/-- Where no visit is lost no row reopens. -/
theorem Traced.reopensDated (traced : v.Traced) {saved : Plan} (planned : saved.planned = v.planned)
    (kept : ∀ r ∈ v.visits, r ∈ saved.visits) : saved.reopensDated = true := by
  unfold Plan.reopensDated
  rw [List.all_eq_true, planned]
  intro r mem
  by_cases done : r.2.status = .done
  · have there : (saved.visitsIn r.2.elevator r.2.period).any isCompleted = true := by
      rcases List.any_eq_true.mp (traced.done r mem done) with ⟨found, listed, completed⟩
      rcases List.mem_filter.mp listed with ⟨among, within⟩
      exact List.any_eq_true.mpr ⟨found, List.mem_filter.mpr ⟨kept found among, within⟩, completed⟩
    simp [there]
  · simp [done]

theorem editVisit_accepted {id : Nat} {changes : VisitChanges} {visit : Visit} (found : v.visits.get? id = some visit)
    (accepted : v.accepts (changes.apply visit) = true) : v.editVisit id changes =
      .ok (follow { v with visits := v.visits.update id (fun _ => changes.apply visit) } (changes.apply visit)
        (some visit)) := by
  unfold accepts at accepted
  rw [Bool.and_eq_true, Option.isSome_iff_exists] at accepted
  rcases accepted with ⟨⟨lift, there⟩, ensured⟩
  have elevator : v.getElevator (changes.apply visit).elevator = .ok lift := by
    unfold getElevator
    rw [there]
  have contract : v.ensureActiveContract (changes.apply visit).elevator (changes.apply visit).contract = .ok () := by
    cases covered : v.ensureActiveContract (changes.apply visit).elevator (changes.apply visit).contract with
    | ok _ => rfl
    | error failure =>
        rw [covered] at ensured
        cases ensured
  unfold editVisit
  rw [found]
  dsimp only
  rw [elevator, contract]
  rfl

theorem step_ok {event : Event} (done : v.attempt event = .ok v') : v.step event = v' := by
  unfold Plan.step
  rw [done]

theorem step_refused {event : Event} {failure : Failure} (refused : v.attempt event = .error failure) :
    v.step event = v := by
  unfold Plan.step
  rw [refused]

theorem step_editVisit {id : Nat} {changes : VisitChanges} {visit : Visit} (found : v.visits.get? id = some visit) :
    v.step (.editVisit id changes) = if v.accepts (changes.apply visit) then
      follow { v with visits := v.visits.update id (fun _ => changes.apply visit) } (changes.apply visit) (some visit)
      else v := by
  split_ifs with accepted
  · exact step_ok (editVisit_accepted found accepted)
  · cases done : v.editVisit id changes with
    | error failure => exact step_refused done
    | ok v' =>
        rcases editVisit_ok done with ⟨visit', found', there, covered, _⟩
        rw [found] at found'
        cases found'
        apply absurd _ accepted
        have contract : v.ensureActiveContract (changes.apply visit).elevator (changes.apply visit).contract = .ok () :=
          if_pos covered
        unfold accepts
        rw [there, contract]
        rfl

theorem step_deleteVisit {id : Nat} {visit : Visit} (found : v.visits.get? id = some visit) :
    v.step (.deleteVisit id) = follow { v with visits := v.visits.filter (fun r => decide (r.1 ≠ id)) } visit none := by
  apply step_ok
  have deleted : v.deleteVisit id =
      .ok (follow { v with visits := v.visits.filter (fun r => decide (r.1 ≠ id)) } visit none) := by
    unfold deleteVisit
    rw [found, follow_alone]
  exact deleted

theorem step_editElevator (v : Plan) (id days : Nat) : v.step (.editElevator id days) =
    if 1 ≤ days ∧ days ≤ 30 then
      { v with elevators := v.elevators.update id (fun lift => { lift with maintenanceIntervalDays := days }) }
    else v := by
  have checked : v.attempt (.editElevator id days) = (checkInterval days).bind (fun _ => .ok { v with
      elevators := v.elevators.update id (fun lift => { lift with maintenanceIntervalDays := days }) }) := rfl
  unfold checkInterval at checked
  split_ifs at checked ⊢ with valid
  · exact step_ok checked
  · exact step_refused checked

/-- A step keeps the dates exactly if it is timely. -/
theorem Dated.step_iff (dated : v.Dated) (sound : v.Sound) (traced : v.Traced) (event : Event) :
    (v.step event).Dated ↔ v.timely event = true := by
  have kept (passes : v.timely event = true) (after : ∀ v', v.attempt event = .ok v' -> v'.Dated) :
      (v.step event).Dated ↔ v.timely event = true := by
    refine iff_of_true ?_ passes
    unfold Plan.step
    cases done : v.attempt event with
    | error failure => exact dated
    | ok v' => exact after v' done
  cases event with
  | dawn day => exact kept rfl (fun v' done => by cases done; exact dated.dawn day)
  | cover lines =>
      refine kept rfl (fun v' done => ?_)
      cases done
      exact fun elevator => ⟨(dated elevator).lift, (dated elevator).rows⟩
  | team userCustomers =>
      refine kept rfl (fun v' done => ?_)
      cases done
      exact fun elevator => ⟨(dated elevator).lift, (dated elevator).rows⟩
  | createElevator customer days =>
      refine kept rfl (fun v' done => ?_)
      rcases bind_ok.mp done with ⟨_, _, done⟩
      cases done
      exact dated.createElevator sound traced rfl
  | editElevator id days =>
      rw [step_editElevator]
      dsimp only [timely]
      split_ifs with valid
      · rw [dated.editElevator_iff]
        cases v.elevators.get? id with
        | none => simp
        | some lift => simp [valid]
      · cases v.elevators.get? id with
        | none => simp [dated]
        | some lift => simp [valid, dated]
  | recordVisit visit =>
      refine kept rfl (fun v' done => ?_)
      rw [(recordVisit_ok done).2]
      exact (dated.follow_iff traced (moves_recordVisit v visit)).mpr
        (traced.reopensDated rfl (fun r mem => List.mem_append_left _ mem))
  | editVisit id changes =>
      cases found : v.visits.get? id with
      | none =>
          have refused : v.editVisit id changes = .error .notFound := by
            unfold editVisit
            rw [found]
          dsimp only [timely]
          rw [@step_refused v (.editVisit id changes) _ refused, found]
          exact iff_of_true dated rfl
      | some visit =>
          dsimp only [timely]
          rw [step_editVisit found, found]
          dsimp only
          split_ifs with accepted
          · rw [dated.follow_iff traced (moves_editVisit sound.visits found _), accepted]
            simp
          · simp [accepted, dated]
  | deleteVisit id =>
      cases found : v.visits.get? id with
      | none =>
          have refused : v.deleteVisit id = .error .notFound := by
            unfold deleteVisit
            rw [found]
          rw [@step_refused v (.deleteVisit id) _ refused]
          refine iff_of_true dated (traced.reopensDated rfl ?_)
          intro r mem
          refine List.mem_filter.mpr ⟨mem, decide_eq_true ?_⟩
          rintro rfl
          exact Rows.get?_eq_none.mp found r.2 mem
      | some visit =>
          rw [step_deleteVisit found]
          exact dated.follow_iff traced (moves_deleteVisit sound.visits found)
  | editPlannedVisit id changes => exact kept rfl (fun v' done => dated.edited (editPlannedVisit_ok done))
  | bulkAssign ids technician => exact kept rfl (fun v' done => dated.edited (bulkAssign_ok done))
  | generatePlan => exact kept rfl (fun v' done => by cases done; exact dated.generatePlan sound)

theorem Traced.step (traced : v.Traced) (sound : v.Sound) (event : Event) : (v.step event).Traced := by
  unfold Plan.step
  cases done : v.attempt event with
  | error failure => exact traced
  | ok v' => exact traced.attempt sound done

end Plan

theorem empty_dated (today : Date) : (Plan.empty today).Dated := by
  intro elevator
  constructor
  · intro lift found
    cases found
  · intro lift found
    cases found

/-! ## Runs -/

/-- The dates agree with the visits in every state of a run exactly if every interval
is changed, and every row reopened, without making another date. -/
theorem due_dates_agree (today : Date) (events : List Event) :
    (∀ before, before <+: events -> (run Plan.step (Plan.empty today) before).Dated) ↔
      everyStep Plan.step Plan.timely (Plan.empty today) events = true := by
  have start : (Plan.empty today).Sound ∧ (Plan.empty today).Traced ∧ (Plan.empty today).Dated :=
    ⟨empty_sound today, empty_traced today, empty_dated today⟩
  have keeps (v : Plan) (event : Event) (timely : v.timely event = true) (now : v.Sound ∧ v.Traced ∧ v.Dated) :
      (v.step event).Sound ∧ (v.step event).Traced ∧ (v.step event).Dated := by
    rcases now with ⟨sound, traced, dated⟩
    exact ⟨sound.step event, traced.step sound event, (dated.step_iff sound traced event).mpr timely⟩
  constructor
  · intro law
    refine Transitions.everyStep_of_law keeps ?_ start law
    intro v event now after
    rcases now with ⟨sound, traced, dated⟩
    exact (dated.step_iff sound traced event).mp after
  · rintro timely before ⟨after, rfl⟩
    have sofar := (Transitions.everyStep_append.mp timely).1
    exact (Transitions.run_invariant_of_everyStep keeps sofar start).2.2

/-- A lift planned in August 2026, visited on the third, and the visit deleted. -/
def visitWithdrawn : List Event := [
  .createElevator 0 30,
  .cover [(0, 0)],
  .generatePlan,
  .recordVisit { elevator := 0, contract := 0, technician := 0, visitDate := (Date.first 24319).addDays 2, status := .completed },
  .deleteVisit 3]

/-- The August row reopens with the due date that the deleted visit gave it. -/
theorem reopened_row_misdated : ¬ ∀ today events, (run Plan.step (Plan.empty today) events).Dated := by
  intro law
  have dated := law ⟨24319, 2, by decide⟩ visitWithdrawn 0
  have rows := dated.rows ⟨0, 30, none, none⟩ (by decide +kernel)
  revert rows
  unfold Plan.follows
  decide +kernel

end Maintenance
end Shiftlush
