import Shiftlush.Maintenance.Plan

namespace Shiftlush
namespace Maintenance

open Calendar (Date monthBounds)

/-!
# The row of a lift and a month

What each operation of the plan does to the one row of a lift and a month.  The
generator treats the rows one by one, so its result is given row by row.
-/

variable {v : Plan} {elevator : Nat} {period : Int}

/-! ## Looking rows up -/

/-- A change of a row leaves its lift and its month. -/
def Keyed (g : PlannedVisit -> PlannedVisit) : Prop :=
  ∀ row, (g row).elevator = row.elevator ∧ (g row).period = row.period

/-- The row of a lift and a month, in a list of rows. -/
def rowOf (planned : Rows PlannedVisit) (elevator : Nat) (period : Int) : Option PlannedVisit :=
  (planned.find? (fun r => decide (r.2.elevator = elevator ∧ r.2.period = period))).map Prod.snd

theorem rowFor_eq (v : Plan) (elevator : Nat) (period : Int) :
    v.rowFor elevator period = rowOf v.planned elevator period := rfl

theorem rowOf_some {planned : Rows PlannedVisit} {row : PlannedVisit} (found : rowOf planned elevator period = some row) :
    row.elevator = elevator ∧ row.period = period ∧ ∃ id, (id, row) ∈ planned := by
  rcases Option.map_eq_some_iff.mp found with ⟨r, at_r, rfl⟩
  have keys : r.2.elevator = elevator ∧ r.2.period = period := by simpa using List.find?_some at_r
  exact ⟨keys.1, keys.2, r.1, List.mem_of_find?_eq_some at_r⟩

theorem rowOf_none {planned : Rows PlannedVisit} : rowOf planned elevator period = none ↔
    ∀ r ∈ planned, ¬ (r.2.elevator = elevator ∧ r.2.period = period) := by
  unfold rowOf
  simp [List.find?_eq_none]

/-- Rows rewritten each for its lift and month. -/
theorem rowOf_map (planned : Rows PlannedVisit) {g : PlannedVisit -> PlannedVisit} (keyed : Keyed g) (elevator : Nat)
    (period : Int) :
    rowOf (planned.map (fun r => (r.1, g r.2))) elevator period = (rowOf planned elevator period).map g := by
  have same : (fun r : Nat × PlannedVisit => decide (r.2.elevator = elevator ∧ r.2.period = period)) ∘
        (fun r : Nat × PlannedVisit => (r.1, g r.2)) = fun r => decide (r.2.elevator = elevator ∧ r.2.period = period) := by
    funext r
    simp [keyed r.2]
  unfold rowOf
  rw [List.find?_map, same, Option.map_map, Option.map_map]
  rfl

theorem rowOf_insert (planned : Rows PlannedVisit) (id : Nat) (row : PlannedVisit) (elevator : Nat) (period : Int) :
    rowOf (planned.insert id row) elevator period =
      (rowOf planned elevator period).or
        (if row.elevator = elevator ∧ row.period = period then some row else none) := by
  unfold rowOf Rows.insert
  rw [List.find?_append]
  cases planned.find? (fun r => decide (r.2.elevator = elevator ∧ r.2.period = period)) with
  | some r => rfl
  | none => by_cases here : row.elevator = elevator ∧ row.period = period <;> simp [here]

/-! ## One row for a lift and a month -/

/-- The unique constraint. -/
def Plan.OneRow (v : Plan) : Prop := (v.planned.map (fun r => (r.2.elevator, r.2.period))).Nodup

theorem Plan.OneRow.rowFor_of_mem (one : v.OneRow) {r : Nat × PlannedVisit} (mem : r ∈ v.planned) :
    v.rowFor r.2.elevator r.2.period = some r.2 := by
  cases found : v.rowFor r.2.elevator r.2.period with
  | none => exact absurd ⟨rfl, rfl⟩ (rowOf_none.mp found r mem)
  | some row =>
      rcases rowOf_some found with ⟨lift, month, id, mem'⟩
      have same := List.inj_on_of_nodup_map one mem mem' (by rw [lift, month])
      rw [same]

/-- What is so of the row of each lift and month is so of each row. -/
theorem Plan.OneRow.forall_rows (one : v.OneRow) {J : PlannedVisit -> Prop} :
    (∀ r ∈ v.planned, J r.2) ↔ ∀ elevator period row, v.rowFor elevator period = some row -> J row := by
  constructor
  · intro each elevator period row found
    rcases rowOf_some found with ⟨_, _, id, mem⟩
    exact each (id, row) mem
  · intro each r mem
    exact each _ _ r.2 (one.rowFor_of_mem mem)

theorem keys_map (planned : Rows PlannedVisit) {f : Nat × PlannedVisit -> Nat × PlannedVisit}
    (keyed : ∀ r, (f r).2.elevator = r.2.elevator ∧ (f r).2.period = r.2.period) :
    (planned.map f).map (fun r => (r.2.elevator, r.2.period)) = planned.map (fun r => (r.2.elevator, r.2.period)) := by
  rw [List.map_map]
  apply List.map_congr_left
  intro r _
  simp [keyed r]

theorem updateWhere_eq_map (planned : Rows PlannedVisit) (test : PlannedVisit -> Bool) (f : PlannedVisit -> PlannedVisit) :
    planned.updateWhere (fun _ row => test row) f =
      planned.map (fun r => (r.1, if test r.2 then f r.2 else r.2)) := by
  apply List.map_congr_left
  intro r _
  by_cases passes : test r.2 = true
  · simp [passes]
  · simp [passes]

/-! ## What the operations make of a row -/

/-- The row with the due date its lift has now. -/
def Plan.redated (v : Plan) (elevator : Nat) (row : PlannedVisit) : PlannedVisit :=
  match v.elevators.get? elevator with
  | none => row
  | some lift =>
      if row.elevator = elevator ∧ row.status = .planned ∧ row.manuallyEdited = false ∧ v.today.month ≤ row.period then
        { row with dueDate := dueDateIn row.period lift.nextMaintenanceDate }
      else row

/-- The row with what its visits say now. -/
def Plan.synced (v : Plan) (elevator : Nat) (period : Int) (row : PlannedVisit) : PlannedVisit :=
  if row.elevator = elevator ∧ row.period = period ∧ row.status ≠ .cancelled then
    { row with status := (v.outcome elevator period).1, visit := (v.outcome elevator period).2 }
  else row

theorem keyed_redated (v : Plan) (elevator : Nat) : Keyed (v.redated elevator) := by
  intro row
  unfold Plan.redated
  split
  · exact ⟨rfl, rfl⟩
  · split
    · exact ⟨rfl, rfl⟩
    · exact ⟨rfl, rfl⟩

theorem keyed_synced (v : Plan) (elevator : Nat) (period : Int) : Keyed (v.synced elevator period) := by
  intro row
  unfold Plan.synced
  split
  · exact ⟨rfl, rfl⟩
  · exact ⟨rfl, rfl⟩

/-- What a change of the planned rows leaves alone. -/
structure Plan.SameRecord (v v' : Plan) : Prop where
  today : v'.today = v.today
  lines : v'.lines = v.lines
  userCustomers : v'.userCustomers = v.userCustomers
  visits : v'.visits = v.visits
  elevators : v'.elevators = v.elevators

theorem Plan.SameRecord.refl (v : Plan) : v.SameRecord v := ⟨rfl, rfl, rfl, rfl, rfl⟩

theorem Plan.SameRecord.trans {v v' v'' : Plan} (first : v.SameRecord v') (second : v'.SameRecord v'') :
    v.SameRecord v'' :=
  ⟨second.today.trans first.today, second.lines.trans first.lines, second.userCustomers.trans first.userCustomers,
    second.visits.trans first.visits, second.elevators.trans first.elevators⟩

theorem refresh_spec (v : Plan) (elevator : Nat) : v.SameRecord (v.refreshPlannedDueDates elevator) ∧
    (v.refreshPlannedDueDates elevator).planned = v.planned.map (fun r => (r.1, v.redated elevator r.2)) := by
  unfold Plan.refreshPlannedDueDates Plan.redated
  cases v.elevators.get? elevator with
  | none => simp [Plan.SameRecord.refl]
  | some lift =>
      refine ⟨⟨rfl, rfl, rfl, rfl, rfl⟩, ?_⟩
      dsimp only
      rw [updateWhere_eq_map]
      simp

theorem sync_spec (v : Plan) (elevator : Nat) (day : Date) : v.SameRecord (v.syncPlannedVisit elevator day) ∧
    (v.syncPlannedVisit elevator day).planned = v.planned.map (fun r => (r.1, v.synced elevator day.month r.2)) := by
  refine ⟨⟨rfl, rfl, rfl, rfl, rfl⟩, ?_⟩
  unfold Plan.syncPlannedVisit Plan.synced
  dsimp only
  rw [updateWhere_eq_map]
  simp

theorem outcome_congr {v v' : Plan} (same : v'.visits = v.visits) (elevator : Nat) (period : Int) :
    v'.outcome elevator period = v.outcome elevator period := by
  unfold Plan.outcome Plan.visitsIn
  rw [same]

/-! ## A run of the generator -/

/-- The row a run makes for a covered lift that has none. -/
def Plan.created (v : Plan) (elevator : Nat) (lift : Elevator) (period : Int) : PlannedVisit :=
  { elevator := elevator, period := period, dueDate := dueDateIn period lift.nextMaintenanceDate, plannedDate := none,
    technician := v.defaultTechnician lift.customer, status := .planned, visit := none, manuallyEdited := false }

/-- What a run makes of the row of a covered lift. -/
def Plan.followed (v : Plan) (elevator : Nat) (lift : Elevator) (period : Int) (row : PlannedVisit) : PlannedVisit :=
  if row.manuallyEdited then row
  else
    let followed := followTheFacts row (dueDateIn period lift.nextMaintenanceDate) (v.defaultTechnician lift.customer)
    if row.status = .cancelled then v.synced elevator period followed.1 else followed.1

/-- What a run makes of the row of a lift without cover. -/
def uncovered (row : PlannedVisit) : PlannedVisit :=
  if row.status = .planned ∧ row.manuallyEdited = false then { row with status := .cancelled } else row

/-- The row that a run leaves a covered lift with. -/
def Plan.planRow (v : Plan) (elevator : Nat) (lift : Elevator) (period : Int) : PlannedVisit :=
  match v.rowFor elevator period with
  | none => v.created elevator lift period
  | some row => v.followed elevator lift period row

/-- The row of a lift for one of the two months of a run, after it. -/
def Plan.replanned (v : Plan) (elevator : Nat) (period : Int) : Option PlannedVisit :=
  match v.coveredElevators.get? elevator with
  | some lift => some (v.planRow elevator lift period)
  | none => (v.rowFor elevator period).map uncovered

section Follow

variable (row : PlannedVisit) (due : Date) (default : Option Nat)

/-- What `_follow_the_facts` says changed did change, and the rest did not. -/
theorem followTheFacts_spec :
    (followTheFacts row due default).1.elevator = row.elevator ∧
    (followTheFacts row due default).1.period = row.period ∧
    (followTheFacts row due default).1.visit = row.visit ∧
    (followTheFacts row due default).1.manuallyEdited = row.manuallyEdited ∧
    (followTheFacts row due default).1.status = (if row.status = .cancelled then .planned else row.status) ∧
    ((followTheFacts row due default).1.status = .planned -> (followTheFacts row due default).1.dueDate = due) ∧
    ((followTheFacts row due default).2 = [] -> (followTheFacts row due default).1 = row) ∧
    (Field.status ∈ (followTheFacts row due default).2 ↔ row.status = .cancelled) := by
  unfold followTheFacts
  cases status : row.status <;> dsimp only <;> split_ifs <;> simp_all

end Follow

theorem rowFor_saveRow (v : Plan) (row : PlannedVisit) (elevator : Nat) (period : Int) :
    (v.saveRow row).rowFor elevator period =
      if elevator = row.elevator ∧ period = row.period then (v.rowFor elevator period).map (fun _ => row)
      else v.rowFor elevator period := by
  have keyed : Keyed (fun other => if other.elevator = row.elevator ∧ other.period = row.period then row else other) := by
    intro other
    dsimp only
    split_ifs with here
    · exact ⟨here.1.symm, here.2.symm⟩
    · exact ⟨rfl, rfl⟩
  have saved : (v.saveRow row).rowFor elevator period = (v.rowFor elevator period).map
      (fun other => if other.elevator = row.elevator ∧ other.period = row.period then row else other) := by
    rw [rowFor_eq, rowFor_eq, ← rowOf_map v.planned keyed]
    unfold Plan.saveRow
    dsimp only
    rw [updateWhere_eq_map]
    simp
  rw [saved]
  cases found : v.rowFor elevator period with
  | none => simp
  | some other =>
      rcases rowOf_some found with ⟨rfl, rfl, _⟩
      by_cases here : other.elevator = row.elevator ∧ other.period = row.period
      · simp [here]
      · simp [here]

theorem rowFor_sync (v : Plan) (elevator : Nat) (day : Date) (elevator' : Nat) (period : Int) :
    (v.syncPlannedVisit elevator day).rowFor elevator' period =
      (v.rowFor elevator' period).map (v.synced elevator day.month) := by
  rw [rowFor_eq, (sync_spec v elevator day).2, rowOf_map v.planned (keyed_synced v elevator day.month)]
  rfl

theorem synced_other {v : Plan} {elevator : Nat} {period : Int} {row : PlannedVisit}
    (other : ¬ (row.elevator = elevator ∧ row.period = period)) : v.synced elevator period row = row := by
  unfold Plan.synced
  rw [if_neg]
  rintro ⟨lift, month, _⟩
  exact other ⟨lift, month⟩

/-- One turn of the loop over the covered lifts. -/
theorem planElevator_spec (period : Int) (acc : Plan × PlanRun) (r : Nat × Elevator) :
    acc.1.SameRecord (Plan.planElevator period acc r).1 ∧
    ∀ elevator month, (Plan.planElevator period acc r).1.rowFor elevator month =
      if elevator = r.1 ∧ month = period then some (acc.1.planRow r.1 r.2 period)
      else acc.1.rowFor elevator month := by
  unfold Plan.planElevator Plan.planRow
  dsimp only
  cases found : acc.1.rowFor r.1 period with
  | none =>
      refine ⟨⟨rfl, rfl, rfl, rfl, rfl⟩, ?_⟩
      intro elevator month
      rw [rowFor_eq]
      dsimp only
      rw [rowOf_insert, ← rowFor_eq]
      dsimp only
      by_cases here : elevator = r.1 ∧ month = period
      · rw [here.1, here.2, found]
        simp [Plan.created]
      · have there : ¬ (r.1 = elevator ∧ period = month) := fun same => here ⟨same.1.symm, same.2.symm⟩
        simp [here, there]
  | some row =>
      rcases rowOf_some found with ⟨lift, month_, _⟩
      have follow := followTheFacts_spec row (dueDateIn period r.2.nextMaintenanceDate)
        (acc.1.defaultTechnician r.2.customer)
      unfold Plan.followed
      dsimp only
      generalize followTheFacts row (dueDateIn period r.2.nextMaintenanceDate)
        (acc.1.defaultTechnician r.2.customer) = changed at follow
      rcases follow with ⟨keptLift, keptMonth, _, _, status, _, unchanged, reopened⟩
      have same (row' : PlannedVisit) (is : row' = row) (elevator : Nat) (month : Int) :
          acc.1.rowFor elevator month =
            if elevator = r.1 ∧ month = period then some row' else acc.1.rowFor elevator month := by
        split_ifs with here
        · rw [here.1, here.2, found, is]
        · rfl
      have saved (elevator : Nat) (month : Int) : (acc.1.saveRow changed.1).rowFor elevator month =
          if elevator = r.1 ∧ month = period then some changed.1 else acc.1.rowFor elevator month := by
        rw [rowFor_saveRow, keptLift, keptMonth, lift, month_]
        split_ifs with here
        · rw [here.1, here.2, found]
          rfl
        · rfl
      by_cases edited : row.manuallyEdited = true
      · rw [if_pos edited, if_pos edited]
        exact ⟨.refl acc.1, same row rfl⟩
      · rw [if_neg edited, if_neg edited]
        by_cases nothing : changed.2 = []
        · have open_ : row.status ≠ .cancelled := by
            intro cancelled
            rw [nothing] at reopened
            cases reopened.mpr cancelled
          rw [if_pos nothing, if_neg open_]
          exact ⟨.refl acc.1, same changed.1 (unchanged nothing)⟩
        · rw [if_neg nothing]
          by_cases cancelled : row.status = .cancelled
          · -- the reopened row follows its visits
            have start : (monthBounds period).1.month = period := rfl
            rw [if_pos cancelled]
            dsimp only
            rw [if_pos (reopened.mpr cancelled)]
            refine ⟨⟨rfl, rfl, rfl, rfl, rfl⟩, ?_⟩
            intro elevator month
            rw [rowFor_sync, saved, start]
            split_ifs with here
            · rfl
            · cases other : acc.1.rowFor elevator month with
              | none => rfl
              | some row' =>
                  rcases rowOf_some other with ⟨rfl, rfl, _⟩
                  rw [Option.map_some, synced_other here]
          · rw [if_neg cancelled]
            dsimp only
            rw [if_neg (fun listed => cancelled (reopened.mp listed))]
            exact ⟨⟨rfl, rfl, rfl, rfl, rfl⟩, saved⟩

/-- What a run makes of a row depends on the row and on the record. -/
theorem Plan.SameRecord.planRow {v v' : Plan} (same : v.SameRecord v')
    (row : v'.rowFor elevator period = v.rowFor elevator period) (lift : Elevator) :
    v'.planRow elevator lift period = v.planRow elevator lift period := by
  have technician (customer : Nat) : v'.defaultTechnician customer = v.defaultTechnician customer := by
    unfold Plan.defaultTechnician
    rw [same.userCustomers]
  have outcome := outcome_congr same.visits elevator period
  unfold Plan.planRow Plan.created Plan.followed Plan.synced
  rw [row, outcome, technician]

theorem Plan.SameRecord.coveredElevators {v v' : Plan} (same : v.SameRecord v') :
    v'.coveredElevators = v.coveredElevators := by
  unfold Plan.coveredElevators
  rw [same.lines, same.elevators]

/-- The loop over the covered lifts. -/
theorem foldl_planElevator {items : Rows Elevator} (distinct : items.Distinct) (period : Int) (acc : Plan × PlanRun) :
    acc.1.SameRecord (items.foldl (Plan.planElevator period) acc).1 ∧
    ∀ elevator month, (items.foldl (Plan.planElevator period) acc).1.rowFor elevator month =
      match (if month = period then items.get? elevator else none) with
      | some lift => some (acc.1.planRow elevator lift period)
      | none => acc.1.rowFor elevator month := by
  induction items generalizing acc with
  | nil => exact ⟨.refl acc.1, fun elevator month => by simp [Rows.get?]⟩
  | cons r items ih =>
      rcases planElevator_spec period acc r with ⟨record, turn⟩
      rcases List.nodup_cons.mp distinct with ⟨fresh, rest⟩
      rcases ih rest (Plan.planElevator period acc r) with ⟨record', loop⟩
      refine ⟨record.trans record', ?_⟩
      intro elevator month
      rw [List.foldl_cons, loop]
      by_cases now : month = period
      · subst now
        have head : Rows.get? (r :: items) elevator = if r.1 = elevator then some r.2 else Rows.get? items elevator := by
          unfold Rows.get?
          rw [List.find?_cons]
          by_cases here : r.1 = elevator <;> simp [here]
        rw [if_pos rfl, if_pos rfl, head]
        by_cases here : r.1 = elevator
        · have absent : Rows.get? items elevator = none := by
            rw [Rows.get?_eq_none]
            intro lift mem
            exact fresh (here ▸ List.mem_map_of_mem mem)
          rw [if_pos here, absent]
          dsimp only
          rw [turn, if_pos ⟨here.symm, rfl⟩, here]
        · rw [if_neg here]
          have frame : (Plan.planElevator month acc r).1.rowFor elevator month = acc.1.rowFor elevator month := by
            rw [turn, if_neg (fun same => here same.1.symm)]
          cases Rows.get? items elevator with
          | none => exact frame
          | some lift => exact congrArg some (record.planRow frame lift)
      · rw [if_neg now, if_neg now]
        dsimp only
        rw [turn, if_neg (fun same => now same.2)]

theorem planRow_keys (v : Plan) (elevator : Nat) (lift : Elevator) (period : Int) :
    (v.planRow elevator lift period).elevator = elevator ∧ (v.planRow elevator lift period).period = period := by
  unfold Plan.planRow
  cases found : v.rowFor elevator period with
  | none => exact ⟨rfl, rfl⟩
  | some row =>
      rcases rowOf_some found with ⟨rfl, rfl, _⟩
      have follow := followTheFacts_spec row (dueDateIn row.period lift.nextMaintenanceDate)
        (v.defaultTechnician lift.customer)
      have keys := keyed_synced v row.elevator row.period (followTheFacts row
        (dueDateIn row.period lift.nextMaintenanceDate) (v.defaultTechnician lift.customer)).1
      dsimp only [Plan.followed]
      split_ifs
      · exact ⟨rfl, rfl⟩
      · exact ⟨keys.1.trans follow.1, keys.2.trans follow.2.1⟩
      · exact ⟨follow.1, follow.2.1⟩

theorem distinct_covered (distinct : v.elevators.Distinct) : v.coveredElevators.Distinct :=
  distinct.filter _

theorem planPeriod_spec {acc : Plan × PlanRun} (distinct : acc.1.elevators.Distinct) (period : Int) :
    acc.1.SameRecord (Plan.planPeriod acc period).1 ∧
    ∀ elevator month, (Plan.planPeriod acc period).1.rowFor elevator month =
      if month = period then acc.1.replanned elevator period else acc.1.rowFor elevator month := by
  rcases foldl_planElevator (distinct_covered distinct) period acc with ⟨record, loop⟩
  unfold Plan.planPeriod
  dsimp only
  generalize acc.1.coveredElevators.foldl (Plan.planElevator period) acc = planned at record loop
  refine ⟨⟨record.today, record.lines, record.userCustomers, record.visits, record.elevators⟩, ?_⟩
  have lost (row : PlannedVisit) : planned.1.losesCover period row =
      (decide (row.period = period ∧ row.status = .planned ∧ row.manuallyEdited = false) &&
        (acc.1.coveredElevators.get? row.elevator).isNone) := by
    unfold Plan.losesCover
    rw [record.coveredElevators]
    congr 1
    cases found : acc.1.coveredElevators.get? row.elevator with
    | none =>
        have absent := Rows.get?_eq_none.mp found
        rw [Option.isNone_none, Bool.not_eq_true', List.any_eq_false]
        intro r mem same
        exact absent r.2 ((of_decide_eq_true same) ▸ mem)
    | some lift =>
        rw [Option.isNone_some, Bool.not_eq_false', List.any_eq_true]
        exact ⟨_, Rows.mem_of_get? found, decide_eq_true rfl⟩
  have keyed : Keyed (fun row => if planned.1.losesCover period row then { row with status := .cancelled } else row) := by
    intro row
    dsimp only
    split_ifs
    · exact ⟨rfl, rfl⟩
    · exact ⟨rfl, rfl⟩
  intro elevator month
  rw [rowFor_eq]
  dsimp only
  rw [updateWhere_eq_map, rowOf_map _ keyed, ← rowFor_eq, loop]
  unfold Plan.replanned
  by_cases now : month = period
  · subst now
    rw [if_pos rfl, if_pos rfl]
    cases found : acc.1.coveredElevators.get? elevator with
    | some lift =>
        have keys := (planRow_keys acc.1 elevator lift month).1
        simp [lost, keys, found]
    | none =>
        cases row : acc.1.rowFor elevator month with
        | none => rfl
        | some row =>
            rcases rowOf_some row with ⟨rfl, rfl, _⟩
            simp [lost, found, uncovered]
  · rw [if_neg now, if_neg now]
    cases row : acc.1.rowFor elevator month with
    | none => rfl
    | some row =>
        rcases rowOf_some row with ⟨rfl, rfl, _⟩
        simp [lost, now]

/-- A run leaves the record alone, and the rows of all months but its two. -/
theorem generatePlan_spec (distinct : v.elevators.Distinct) :
    v.SameRecord v.generatePlan.1 ∧
    ∀ elevator month, v.generatePlan.1.rowFor elevator month =
      if month = v.today.month ∨ month = v.today.month + 1 then v.replanned elevator month
      else v.rowFor elevator month := by
  rcases @planPeriod_spec (v, ⟨0, 0, 0, []⟩) distinct v.today.month with ⟨record, first⟩
  dsimp only at record first
  have run : v.generatePlan =
      Plan.planPeriod (Plan.planPeriod (v, ⟨0, 0, 0, []⟩) v.today.month) (v.today.month + 1) := rfl
  rw [run]
  generalize Plan.planPeriod (v, ⟨0, 0, 0, []⟩) v.today.month = acc at record first
  have distinct' : acc.1.elevators.Distinct := by
    rw [record.elevators]
    exact distinct
  rcases planPeriod_spec distinct' (v.today.month + 1) with ⟨record', second⟩
  refine ⟨record.trans record', ?_⟩
  intro elevator month
  rw [second]
  by_cases next : month = v.today.month + 1
  · have frame : acc.1.rowFor elevator month = v.rowFor elevator month := by
      rw [first, if_neg (by omega)]
    rw [if_pos next, if_pos (Or.inr next), ← next]
    unfold Plan.replanned
    rw [record.coveredElevators, frame]
    cases v.coveredElevators.get? elevator with
    | none => rfl
    | some lift => exact congrArg some (record.planRow frame lift)
  · rw [if_neg next, first]
    by_cases now : month = v.today.month
    · rw [if_pos now, if_pos (Or.inl now), now]
    · rw [if_neg now, if_neg (by omega)]

/-! ## The unique constraint -/

theorem Plan.OneRow.map (one : v.OneRow) {v' : Plan} {g : PlannedVisit -> PlannedVisit} (keyed : Keyed g)
    (same : v'.planned = v.planned.map (fun r => (r.1, g r.2))) : v'.OneRow := by
  unfold Plan.OneRow
  rw [same, keys_map v.planned (fun r => keyed r.2)]
  exact one

theorem nodup_updateWhere {planned : Rows PlannedVisit} (one : (planned.map (fun r => (r.2.elevator, r.2.period))).Nodup)
    (test : PlannedVisit -> Bool) (f : PlannedVisit -> PlannedVisit)
    (keyed : ∀ row, test row = true -> (f row).elevator = row.elevator ∧ (f row).period = row.period) :
    ((planned.updateWhere (fun _ row => test row) f).map (fun r => (r.2.elevator, r.2.period))).Nodup := by
  unfold Rows.updateWhere
  rw [keys_map planned]
  · exact one
  · intro r
    split_ifs with passes
    · exact keyed r.2 passes
    · exact ⟨rfl, rfl⟩

theorem Plan.OneRow.sync (one : v.OneRow) (elevator : Nat) (day : Date) : (v.syncPlannedVisit elevator day).OneRow :=
  one.map (keyed_synced v elevator day.month) (sync_spec v elevator day).2

theorem Plan.OneRow.planElevator {acc : Plan × PlanRun} (one : acc.1.OneRow) (period : Int) (r : Nat × Elevator) :
    (Plan.planElevator period acc r).1.OneRow := by
  unfold Plan.planElevator
  dsimp only
  cases found : acc.1.rowFor r.1 period with
  | none =>
      unfold Plan.OneRow Rows.insert
      dsimp only
      rw [List.map_append, List.nodup_append]
      refine ⟨one, List.nodup_singleton _, ?_⟩
      rintro key mem key' mem' rfl
      rcases List.mem_map.mp mem with ⟨other, listed, rfl⟩
      have same : (other.2.elevator, other.2.period) = (r.1, period) := by simpa using mem'
      rw [Prod.mk.injEq] at same
      exact rowOf_none.mp found other listed same
  | some row =>
      have saved (changed : PlannedVisit) : (acc.1.saveRow changed).OneRow := by
        refine nodup_updateWhere one (fun other => decide (other.elevator = changed.elevator ∧
          other.period = changed.period)) (fun _ => changed) ?_
        intro other same
        rcases of_decide_eq_true same with ⟨lift, month⟩
        exact ⟨lift.symm, month.symm⟩
      dsimp only
      by_cases edited : row.manuallyEdited = true
      · rw [if_pos edited]
        exact one
      · rw [if_neg edited]
        by_cases nothing : (followTheFacts row (dueDateIn period r.2.nextMaintenanceDate)
            (acc.1.defaultTechnician r.2.customer)).2 = []
        · rw [if_pos nothing]
          exact one
        · rw [if_neg nothing]
          dsimp only
          split
          · exact (saved _).sync _ _
          · exact saved _

theorem Plan.OneRow.planPeriod {acc : Plan × PlanRun} (one : acc.1.OneRow) (period : Int) :
    (Plan.planPeriod acc period).1.OneRow := by
  have loop : (acc.1.coveredElevators.foldl (Plan.planElevator period) acc).1.OneRow := by
    generalize acc.1.coveredElevators = items
    induction items generalizing acc with
    | nil => exact one
    | cons r items ih => exact ih (one.planElevator period r)
  refine nodup_updateWhere loop (Plan.losesCover _ period) (fun row => { row with status := .cancelled }) ?_
  intro row _
  exact ⟨rfl, rfl⟩

theorem Plan.OneRow.generatePlan (one : v.OneRow) : v.generatePlan.1.OneRow := by
  have first : (Plan.planPeriod (v, ⟨0, 0, 0, []⟩) v.today.month).1.OneRow := one.planPeriod v.today.month
  exact first.planPeriod (v.today.month + 1)

theorem get?_covered (distinct : v.elevators.Distinct) {lift : Elevator}
    (covered : v.coveredElevators.get? elevator = some lift) : v.elevators.get? elevator = some lift :=
  Rows.get?_of_mem distinct (List.mem_filter.mp (Rows.mem_of_get? covered)).1

/-- What is so of the rows, and of those a run leaves in its two months, is so of all
rows after it. -/
theorem generatePlan_rows (distinct : v.elevators.Distinct) (one : v.OneRow) {J : PlannedVisit -> Prop}
    (before : ∀ r ∈ v.planned, J r.2) (lost : ∀ row, J row -> J (uncovered row))
    (planned : ∀ elevator lift period, v.coveredElevators.get? elevator = some lift ->
      period = v.today.month ∨ period = v.today.month + 1 -> J (v.planRow elevator lift period)) :
    ∀ r ∈ v.generatePlan.1.planned, J r.2 := by
  rw [one.forall_rows] at before
  rw [one.generatePlan.forall_rows]
  intro elevator period row found
  rw [(generatePlan_spec distinct).2] at found
  split_ifs at found with listed
  · unfold Plan.replanned at found
    cases covered : v.coveredElevators.get? elevator with
    | some lift =>
        rw [covered] at found
        cases found
        exact planned elevator lift period covered listed
    | none =>
        rw [covered] at found
        rcases Option.map_eq_some_iff.mp found with ⟨row', here, rfl⟩
        exact lost row' (before elevator period row' here)
  · exact before elevator period row found

/-! ## Keys go on -/

theorem nextId_generatePlan (v : Plan) : v.nextId ≤ v.generatePlan.1.nextId := by
  have turn (period : Int) (acc : Plan × PlanRun) (r : Nat × Elevator) :
      acc.1.nextId ≤ (Plan.planElevator period acc r).1.nextId := by
    unfold Plan.planElevator
    dsimp only
    cases acc.1.rowFor r.1 period with
    | none => exact Nat.le_succ _
    | some row =>
        dsimp only
        split_ifs <;> exact le_rfl
  have loop (items : Rows Elevator) (period : Int) (acc : Plan × PlanRun) :
      acc.1.nextId ≤ (items.foldl (Plan.planElevator period) acc).1.nextId := by
    induction items generalizing acc with
    | nil => exact le_rfl
    | cons r items ih => exact (turn period acc r).trans (ih _)
  have month (acc : Plan × PlanRun) (period : Int) : acc.1.nextId ≤ (Plan.planPeriod acc period).1.nextId :=
    loop _ period acc
  exact (month (v, ⟨0, 0, 0, []⟩) v.today.month).trans (month _ _)

end Maintenance
end Shiftlush
