import Shiftlush.Maintenance.Recording

namespace Shiftlush
namespace Maintenance

open Calendar (Date monthBounds)
open Transitions (run everyStep)

/-!
# The plan and the visits

A row agrees with its visits after each synchronisation of its lift and month,
and every change of a visit synchronises the rows it concerns.  The generator
synchronises the rows it reopens, but not those it makes.
-/

namespace Plan

/-- The row has the status and the link its visits give it, unless it is cancelled. -/
def Agrees (v : Plan) (row : PlannedVisit) : Prop :=
  row.status ≠ .cancelled -> (row.status, row.visit) = v.outcome row.elevator row.period

/-- The plan and the visits agree. -/
def InStep (v : Plan) : Prop := ∀ r ∈ v.planned, v.Agrees r.2

/-- No row is made for a lift and a month that has been visited. -/
def unvisited (v : Plan) : Event -> Bool
  | .generatePlan => v.coveredElevators.all (fun r => [v.today.month, v.today.month + 1].all (fun period =>
      (v.rowFor r.1 period).isSome || decide (v.visitsIn r.1 period = [])))
  | _ => true

/-- Keys are used once. -/
structure Sound (v : Plan) : Prop where
  elevators : v.elevators.Distinct
  elevatorsBelow : v.elevators.Below v.nextId
  visits : v.visits.Distinct
  visitsBelow : v.visits.Below v.nextId
  oneRow : v.OneRow

end Plan

variable {v v' : Plan}

/-! ## What the visits give a row -/

theorem outcome_of_visitsIn {elevator : Nat} {period : Int}
    (same : v'.visitsIn elevator period = v.visitsIn elevator period) :
    v'.outcome elevator period = v.outcome elevator period := by
  unfold Plan.outcome
  rw [same]

theorem latest_mem {visits : Rows Visit} {r : Nat × Visit} (found : latest visits = some r) : r ∈ visits :=
  Transitions.mem_of_foldl_best (fun _ => rfl) (fun _ _ => ite_eq_or_eq _ _ _) found

theorem latest_eq_none {visits : Rows Visit} : latest visits = none ↔ visits = [] := by
  have some_ (rest : Rows Visit) (b : Nat × Visit) : rest.foldl laterOf (some b) ≠ none := by
    induction rest generalizing b with
    | nil => exact Option.some_ne_none b
    | cons r rest ih =>
        rw [List.foldl_cons]
        unfold laterOf
        dsimp only
        split_ifs
        · exact ih r
        · exact ih b
  cases visits with
  | nil => simp [latest]
  | cons r rest =>
      constructor
      · intro absent
        exact absurd absent (some_ rest r)
      · intro empty
        cases empty

theorem outcome_status (v : Plan) (elevator : Nat) (period : Int) : (v.outcome elevator period).1 =
    if (v.visitsIn elevator period).any isCompleted then .done else .planned := by
  unfold Plan.outcome
  cases found : latest ((v.visitsIn elevator period).filter isCompleted) with
  | none =>
      have none_ := latest_eq_none.mp found
      rw [List.filter_eq_nil_iff] at none_
      rw [List.any_eq_false.mpr none_]
      rfl
  | some r =>
      rcases List.mem_filter.mp (latest_mem found) with ⟨mem, completed⟩
      rw [List.any_eq_true.mpr ⟨r, mem, completed⟩]
      rfl

theorem outcome_done {elevator : Nat} {period : Int} :
    (v.outcome elevator period).1 = .done ↔ (v.visitsIn elevator period).any isCompleted = true := by
  rw [outcome_status]
  cases (v.visitsIn elevator period).any isCompleted with
  | true => simp
  | false => simp

theorem outcome_planned {elevator : Nat} {period : Int} :
    (v.outcome elevator period).1 = .planned ↔ (v.visitsIn elevator period).any isCompleted = false := by
  rw [outcome_status]
  cases (v.visitsIn elevator period).any isCompleted with
  | true => simp
  | false => simp

/-- Without visits there is nothing to link, and with one there is. -/
theorem outcome_eq_nothing {elevator : Nat} {period : Int} :
    v.outcome elevator period = (.planned, none) ↔ v.visitsIn elevator period = [] := by
  unfold Plan.outcome
  constructor
  · intro nothing
    cases found : latest ((v.visitsIn elevator period).filter isCompleted) with
    | some r =>
        rw [found] at nothing
        cases nothing
    | none =>
        rw [found] at nothing
        simp only [Prod.mk.injEq, Option.map_eq_none_iff, true_and] at nothing
        exact latest_eq_none.mp nothing
  · intro empty
    rw [empty]
    rfl

theorem agrees_congr (same : v'.visits = v.visits) {row : PlannedVisit} : v'.Agrees row ↔ v.Agrees row := by
  unfold Plan.Agrees
  rw [outcome_congr same]

theorem agrees_recomputed (row : PlannedVisit) : v.Agrees (v.recomputed row) := by
  unfold Plan.recomputed
  split_ifs with cancelled
  · intro open_
    exact absurd cancelled open_
  · intro _
    rfl

/-- A change of a visit leaves the rows in step that it does not concern, and brings
the others in step. -/
theorem Plan.InStep.follow (inStep : v.InStep) {saved : Plan} {visit : Visit} {was : Option Visit}
    (moves : v.Moves saved visit was) : (saved.follow visit was).InStep := by
  unfold Plan.follow
  have redates := redates_recalculateBoth saved visit.elevator ((was.map Visit.elevator).getD visit.elevator)
  generalize saved.recalculateBoth visit.elevator ((was.map Visit.elevator).getD visit.elevator) = w at redates
  rcases syncPlan_spec w visit (was.map (fun old => (old.elevator, old.visitDate))) with ⟨record, g, planned, turns⟩
  intro r'' mem
  rw [agrees_congr record.visits]
  rw [planned] at mem
  rcases List.mem_map.mp mem with ⟨r', listed', rfl⟩
  by_cases concerned : Concerns visit (was.map (fun old => (old.elevator, old.visitDate))) r'.2.elevator r'.2.period
  · dsimp only
    rw [(turns r'.2).1 concerned]
    exact agrees_recomputed r'.2
  · dsimp only
    rw [(turns r'.2).2 concerned, agrees_congr redates.visits]
    rcases redates.rows r' listed' with ⟨r, listed, day, eq⟩
    rw [eq] at concerned ⊢
    rw [moves.planned] at listed
    unfold Plan.Agrees
    dsimp only at concerned ⊢
    rw [outcome_of_visitsIn (moves.visitsIn concerned)]
    exact inStep r listed

/-! ## Runs of the generator -/

theorem planRow_agrees {elevator : Nat} {lift : Elevator} {period : Int}
    (inStep : ∀ row, v.rowFor elevator period = some row -> v.Agrees row)
    (unvisited : v.rowFor elevator period = none -> v.visitsIn elevator period = []) :
    v.Agrees (v.planRow elevator lift period) := by
  unfold Plan.planRow
  cases found : v.rowFor elevator period with
  | none =>
      intro _
      exact (outcome_eq_nothing.mpr (unvisited found)).symm
  | some row =>
      rcases rowOf_some found with ⟨rfl, rfl, _⟩
      have agrees := inStep row found
      have follow := followTheFacts_spec row (dueDateIn row.period lift.nextMaintenanceDate)
        (v.defaultTechnician lift.customer)
      dsimp only [Plan.followed]
      generalize followTheFacts row (dueDateIn row.period lift.nextMaintenanceDate)
        (v.defaultTechnician lift.customer) = changed at follow
      rcases follow with ⟨keptLift, keptMonth, link, _, status, _⟩
      split_ifs with edited cancelled
      · exact agrees
      · rw [synced_eq keptLift keptMonth]
        exact agrees_recomputed changed.1
      · rw [if_neg cancelled] at status
        unfold Plan.Agrees
        rw [keptLift, keptMonth, link, status]
        exact agrees

theorem uncovered_agrees {row : PlannedVisit} (agrees : v.Agrees row) : v.Agrees (uncovered row) := by
  unfold uncovered
  split_ifs
  · intro open_
    exact absurd rfl open_
  · exact agrees

theorem unvisited_iff (distinct : v.elevators.Distinct) : v.unvisited .generatePlan = true ↔
    ∀ elevator lift, v.coveredElevators.get? elevator = some lift -> ∀ period,
      period = v.today.month ∨ period = v.today.month + 1 -> v.rowFor elevator period = none ->
      v.visitsIn elevator period = [] := by
  unfold Plan.unvisited
  simp only [List.all_eq_true, List.mem_cons, List.not_mem_nil, or_false, Bool.or_eq_true, decide_eq_true_eq]
  constructor
  · intro each elevator lift covered period listed absent
    rcases each _ (Rows.mem_of_get? covered) period listed with there | empty
    · rw [absent] at there
      cases there
    · exact empty
  · intro each r mem period listed
    cases found : v.rowFor r.1 period with
    | some row => exact Or.inl rfl
    | none => exact Or.inr (each r.1 r.2 (Rows.get?_of_mem (distinct_covered distinct) mem) period listed found)

/-- A run that makes rows only where nobody has been keeps the plan in step. -/
theorem inStep_generatePlan (sound : v.Sound) (inStep : v.InStep) (unvisited : v.unvisited .generatePlan = true) :
    v.generatePlan.1.InStep := by
  rw [unvisited_iff sound.elevators] at unvisited
  have before := (@Plan.OneRow.forall_rows v sound.oneRow v.Agrees).mp inStep
  have after := generatePlan_rows sound.elevators sound.oneRow (J := v.Agrees) inStep (fun _ => uncovered_agrees)
    (fun elevator lift period covered listed =>
      planRow_agrees (before elevator period) (unvisited elevator lift covered period listed))
  intro r mem
  rw [agrees_congr (generatePlan_spec sound.elevators).1.visits]
  exact after r mem

/-- A run that leaves the plan in step makes no row where somebody has been. -/
theorem unvisited_of_generatePlan (sound : v.Sound) (inStep : v.generatePlan.1.InStep) :
    v.unvisited .generatePlan = true := by
  rcases generatePlan_spec sound.elevators with ⟨record, rows⟩
  rw [unvisited_iff sound.elevators]
  intro elevator lift covered period listed absent
  have made : v.generatePlan.1.rowFor elevator period = some (v.created elevator lift period) := by
    rw [rows, if_pos listed]
    unfold Plan.replanned Plan.planRow
    rw [covered, absent]
  have agrees := sound.oneRow.generatePlan.forall_rows.mp inStep elevator period _ made
  rw [agrees_congr record.visits] at agrees
  exact outcome_eq_nothing.mp (agrees (fun same => by cases same)).symm

/-! ## One step -/

/-- An edit of planned rows changes neither their status nor their link. -/
theorem Plan.InStep.edited (inStep : v.InStep) (edits : v.Edits v') : v'.InStep := by
  intro r' mem
  rcases edits.rows r' mem with ⟨r, listed, lift, month, status, link, _⟩
  rw [agrees_congr edits.record.visits]
  unfold Plan.Agrees
  rw [lift, month, status, link]
  exact inStep r listed

/-- A step that makes no row for a visited month keeps the plan in step. -/
theorem Plan.InStep.attempt (inStep : v.InStep) (sound : v.Sound) {event : Event} (unvisited : v.unvisited event = true)
    (done : v.attempt event = .ok v') : v'.InStep := by
  cases event with
  | generatePlan =>
      cases done
      exact inStep_generatePlan sound inStep unvisited
  | recordVisit visit =>
      rw [(recordVisit_ok done).2]
      exact inStep.follow (moves_recordVisit v visit)
  | editVisit id changes =>
      rcases editVisit_ok done with ⟨visit, found, _, _, rfl⟩
      exact inStep.follow (moves_editVisit sound.visits found _)
  | deleteVisit id =>
      rcases deleteVisit_ok done with ⟨visit, found, rfl⟩
      exact inStep.follow (moves_deleteVisit sound.visits found)
  | editPlannedVisit id changes => exact inStep.edited (editPlannedVisit_ok done)
  | bulkAssign ids technician => exact inStep.edited (bulkAssign_ok done)
  | dawn day =>
      cases done
      exact inStep
  | cover lines =>
      cases done
      exact inStep
  | team userCustomers =>
      cases done
      exact inStep
  | createElevator customer days =>
      rcases bind_ok.mp done with ⟨_, _, done⟩
      cases done
      exact inStep
  | editElevator id days =>
      rcases bind_ok.mp done with ⟨_, _, done⟩
      cases done
      exact inStep

theorem Plan.InStep.step (inStep : v.InStep) (sound : v.Sound) {event : Event}
    (unvisited : v.unvisited event = true) : (v.step event).InStep := by
  unfold Plan.step
  cases done : v.attempt event with
  | error failure => exact inStep
  | ok v' => exact inStep.attempt sound unvisited done

theorem unvisited_of_step (sound : v.Sound) (event : Event) (inStep : (v.step event).InStep) :
    v.unvisited event = true := by
  cases event with
  | generatePlan => exact unvisited_of_generatePlan sound inStep
  | _ => rfl

/-! ## Keys -/

theorem empty_sound (today : Date) : (Plan.empty today).Sound where
  elevators := List.nodup_nil
  elevatorsBelow := fun _ here => by cases here
  visits := List.nodup_nil
  visitsBelow := fun _ here => by cases here
  oneRow := List.nodup_nil

namespace Plan

theorem Sound.ofRows (sound : v.Sound) (record : v.SameRecord v') (later : v.nextId ≤ v'.nextId)
    (oneRow : v'.OneRow) : v'.Sound where
  elevators := by
    rw [record.elevators]
    exact sound.elevators
  elevatorsBelow := by
    rw [record.elevators]
    exact sound.elevatorsBelow.mono later
  visits := by
    rw [record.visits]
    exact sound.visits
  visitsBelow := by
    rw [record.visits]
    exact sound.visitsBelow.mono later
  oneRow := oneRow

theorem Sound.edited (sound : v.Sound) (edits : v.Edits v') : v'.Sound := by
  refine sound.ofRows edits.record edits.nextId.ge ?_
  unfold OneRow
  rw [edits.keys]
  exact sound.oneRow

theorem Sound.sync (sound : v.Sound) (elevator : Nat) (day : Date) : (v.syncPlannedVisit elevator day).Sound :=
  sound.ofRows (sync_spec v elevator day).1 (le_refl v.nextId) (sound.oneRow.sync elevator day)

theorem Sound.syncPlan (sound : v.Sound) (visit : Visit) (before : Option (Nat × Date)) :
    (v.syncPlanForVisit visit before).Sound := by
  have synced := sound.sync visit.elevator visit.visitDate
  unfold syncPlanForVisit
  cases before with
  | none => exact synced
  | some was =>
      dsimp only
      split_ifs
      · exact synced
      · exact synced.sync was.1 was.2

theorem Sound.updateElevator (sound : v.Sound) (id : Nat) (f : Elevator -> Elevator) :
    Sound { v with elevators := v.elevators.update id f } where
  elevators := sound.elevators.update id f
  elevatorsBelow := sound.elevatorsBelow.of_isSome (fun _ => Rows.isSome_get?_update v.elevators id _ f)
  visits := sound.visits
  visitsBelow := sound.visitsBelow
  oneRow := sound.oneRow

theorem Sound.recalculate (sound : v.Sound) (elevator : Nat) : (v.recalculateNextMaintenance elevator).Sound := by
  have saved := sound.updateElevator elevator (v.reckoned elevator)
  have refreshed := refresh_spec { v with elevators := v.elevators.update elevator (v.reckoned elevator) } elevator
  exact saved.ofRows refreshed.1 (nextId_refresh _ elevator).ge
    (saved.oneRow.map (keyed_redated _ elevator) refreshed.2)

theorem Sound.follow (sound : v.Sound) (visit : Visit) (was : Option Visit) : (v.follow visit was).Sound := by
  have here := sound.recalculate visit.elevator
  unfold Plan.follow recalculateBoth
  apply Sound.syncPlan
  split_ifs
  · exact here
  · exact here.recalculate _

theorem Sound.attempt (sound : v.Sound) {event : Event} (done : v.attempt event = .ok v') : v'.Sound := by
  cases event with
  | dawn day =>
      cases done
      exact ⟨sound.elevators, sound.elevatorsBelow, sound.visits, sound.visitsBelow, sound.oneRow⟩
  | cover lines =>
      cases done
      exact ⟨sound.elevators, sound.elevatorsBelow, sound.visits, sound.visitsBelow, sound.oneRow⟩
  | team userCustomers =>
      cases done
      exact ⟨sound.elevators, sound.elevatorsBelow, sound.visits, sound.visitsBelow, sound.oneRow⟩
  | createElevator customer days =>
      rcases bind_ok.mp done with ⟨_, _, done⟩
      cases done
      exact ⟨sound.elevators.insert (sound.elevatorsBelow.absent le_rfl), sound.elevatorsBelow.insert _, sound.visits,
        sound.visitsBelow.mono (Nat.le_succ _), sound.oneRow⟩
  | editElevator id days =>
      rcases bind_ok.mp done with ⟨_, _, done⟩
      cases done
      exact sound.updateElevator id _
  | recordVisit visit =>
      rw [(recordVisit_ok done).2]
      have saved : Sound { v with visits := v.visits.insert v.nextId visit, nextId := v.nextId + 1 } :=
        ⟨sound.elevators, sound.elevatorsBelow.mono (Nat.le_succ _), sound.visits.insert
          (sound.visitsBelow.absent le_rfl), sound.visitsBelow.insert _, sound.oneRow⟩
      exact saved.follow visit none
  | editVisit id changes =>
      rcases editVisit_ok done with ⟨visit, _, _, _, rfl⟩
      have saved : Sound { v with visits := v.visits.update id (fun _ => changes.apply visit) } :=
        ⟨sound.elevators, sound.elevatorsBelow, sound.visits.update id (fun _ => changes.apply visit),
          sound.visitsBelow.of_isSome (fun key => Rows.isSome_get?_update v.visits id key (fun _ => changes.apply visit)),
          sound.oneRow⟩
      exact saved.follow (changes.apply visit) (some visit)
  | deleteVisit id =>
      rcases deleteVisit_ok done with ⟨visit, _, rfl⟩
      have saved : Sound { v with visits := v.visits.filter (fun r => decide (r.1 ≠ id)) } :=
        ⟨sound.elevators, sound.elevatorsBelow, sound.visits.filter _, sound.visitsBelow.filter _, sound.oneRow⟩
      exact saved.follow visit none
  | editPlannedVisit id changes => exact sound.edited (editPlannedVisit_ok done)
  | bulkAssign ids technician => exact sound.edited (bulkAssign_ok done)
  | generatePlan =>
      cases done
      exact sound.ofRows (generatePlan_spec sound.elevators).1 (nextId_generatePlan v) sound.oneRow.generatePlan

theorem Sound.step (sound : v.Sound) (event : Event) : (v.step event).Sound := by
  unfold Plan.step
  cases done : v.attempt event with
  | error failure => exact sound
  | ok v' => exact sound.attempt done

end Plan

/-! ## Runs -/

/-- The plan and the visits agree in every state of a run exactly if no run of the
generator makes the row of a lift for a month in which it has been visited. -/
theorem plan_in_step (today : Date) (events : List Event) :
    (∀ before, before <+: events -> (run Plan.step (Plan.empty today) before).InStep) ↔
      everyStep Plan.step Plan.unvisited (Plan.empty today) events = true := by
  constructor
  · intro law
    exact Transitions.everyStep_of_law (J := Plan.Sound) (L := Plan.InStep)
      (fun _ event _ sound => sound.step event)
      (fun _ event sound inStep => unvisited_of_step sound event inStep) (empty_sound today) law
  · rintro unvisited before ⟨after, rfl⟩
    have sofar := (Transitions.everyStep_append.mp unvisited).1
    have both := Transitions.run_invariant_of_everyStep (J := fun (v : Plan) => v.Sound ∧ v.InStep)
      (fun v event here now => ⟨now.1.step event, now.2.step now.1 here⟩) sofar
      ⟨empty_sound today, by
        intro r mem
        cases mem⟩
    exact both.2

/-- A lift visited on 3 August 2026 before the plan had a row for it. -/
def visitedFirst : List Event := [
  .createElevator 0 30,
  .cover [(0, 0)],
  .recordVisit { elevator := 0, contract := 0, technician := 0, visitDate := ⟨24319, 2, by decide⟩, status := .completed },
  .generatePlan]

/-- The August row of a lift that was visited in August is left open. -/
theorem visited_row_left_open :
    ¬ ∀ today events, (run Plan.step (Plan.empty today) events).InStep := by
  intro law
  have open_ := law ⟨24319, 2, by decide⟩ visitedFirst
  revert open_
  unfold Plan.InStep Plan.Agrees
  decide +kernel

end Maintenance
end Shiftlush
