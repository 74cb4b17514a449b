import Shiftlush.Maintenance.PlanRows

namespace Shiftlush
namespace Maintenance

open Transitions (run)

/-!
# The second run of a day

A row is settled when it already says what its lift says.  A run settles every row of
its two months, and a run over settled rows does nothing.
-/

variable {v : Plan} {elevator : Nat} {period : Int} {row : PlannedVisit}

/-! ## Settled rows -/

/-- A row of a covered lift that there is nothing to change of. -/
def Settled (due : Calendar.Date) (default : Option Nat) (row : PlannedVisit) : Prop :=
  row.status ≠ .cancelled ∧ (row.status = .planned -> row.dueDate = due ∧ (row.technician = none -> default = none))

/-- A row no run may touch. -/
def Fixed (row : PlannedVisit) : Prop := row.manuallyEdited = true ∨ row.status = .done

theorem followTheFacts_settled {due : Calendar.Date} {default : Option Nat} (settled : Settled due default row) :
    followTheFacts row due default = (row, []) := by
  rcases settled with ⟨open_, follows⟩
  unfold followTheFacts
  rw [if_neg open_]
  dsimp only
  cases status : row.status with
  | cancelled => exact absurd status open_
  | done => simp [status]
  | planned =>
      rcases follows status with ⟨dated, given⟩
      have default_none : ¬ (row.technician = none ∧ default.isSome) := by
        rintro ⟨nobody, somebody⟩
        rw [given nobody] at somebody
        cases somebody
      simp only [dated, ne_eq, not_true_eq_false, and_false, if_false, status, true_and]
      rw [if_neg default_none]

theorem settled_followTheFacts (row : PlannedVisit) (due : Calendar.Date) (default : Option Nat) :
    Settled due default (followTheFacts row due default).1 := by
  unfold followTheFacts Settled
  cases status : row.status <;> dsimp only <;> split_ifs <;> simp_all

theorem followTheFacts_done (done : row.status = .done) (due : Calendar.Date) (default : Option Nat) :
    followTheFacts row due default = (row, []) := by
  refine followTheFacts_settled ⟨?_, ?_⟩
  · rw [done]
    exact PlannedVisitStatus.noConfusion
  · intro planned
    rw [done] at planned
    cases planned

/-- Reading its visits again leaves a planned row settled. -/
theorem Settled.synced {due : Calendar.Date} {default : Option Nat} (settled : Settled due default row)
    (planned : row.status = .planned) (v : Plan) (elevator : Nat) (period : Int) :
    Settled due default (v.synced elevator period row) := by
  unfold Plan.synced
  split
  · refine ⟨?_, fun _ => settled.2 planned⟩
    dsimp only
    unfold Plan.outcome
    split <;> exact PlannedVisitStatus.noConfusion
  · exact settled

/-- A run leaves the row of a covered lift edited by hand, or settled. -/
theorem planRow_settled (v : Plan) (elevator : Nat) (lift : Elevator) (period : Int) :
    (v.planRow elevator lift period).manuallyEdited = true ∨
      Settled (dueDateIn period lift.nextMaintenanceDate) (v.defaultTechnician lift.customer)
        (v.planRow elevator lift period) := by
  unfold Plan.planRow
  cases v.rowFor elevator period with
  | none => exact .inr ⟨PlannedVisitStatus.noConfusion, fun _ => ⟨rfl, id⟩⟩
  | some row =>
      have settled := settled_followTheFacts row (dueDateIn period lift.nextMaintenanceDate)
        (v.defaultTechnician lift.customer)
      rcases followTheFacts_spec row (dueDateIn period lift.nextMaintenanceDate) (v.defaultTechnician lift.customer)
        with ⟨-, -, -, -, status, -⟩
      dsimp only [Plan.followed]
      split_ifs with edited cancelled
      · exact .inl edited
      · rw [if_pos cancelled] at status
        exact .inr (settled.synced status v elevator period)
      · exact .inr settled

theorem uncovered_kept (row : PlannedVisit) : ¬ ((uncovered row).status = .planned ∧ (uncovered row).manuallyEdited = false) := by
  unfold uncovered
  split_ifs with loses
  · rintro ⟨planned, -⟩
    cases planned
  · exact loses

/-! ## A run over settled rows -/

/-- A month in which a run finds nothing to do. -/
structure Plan.SettledIn (v : Plan) (period : Int) : Prop where
  covered : ∀ r ∈ v.coveredElevators, ∃ row, v.rowFor r.1 period = some row ∧ (row.manuallyEdited = true ∨
    Settled (dueDateIn period r.2.nextMaintenanceDate) (v.defaultTechnician r.2.customer) row)
  kept : ∀ r ∈ v.planned, v.losesCover period r.2 = false

theorem planElevator_settled {r : Nat × Elevator} (done : PlanRun) (found : v.rowFor r.1 period = some row)
    (settled : row.manuallyEdited = true ∨
      Settled (dueDateIn period r.2.nextMaintenanceDate) (v.defaultTechnician r.2.customer) row) :
    Plan.planElevator period (v, done) r = (v, done) := by
  unfold Plan.planElevator
  dsimp only
  rw [found]
  dsimp only
  rcases settled with edited | settled
  · rw [if_pos edited]
  · rw [followTheFacts_settled settled, if_pos rfl]
    exact ite_self _

theorem Plan.SettledIn.planPeriod (settled : v.SettledIn period) (done : PlanRun) :
    Plan.planPeriod (v, done) period = (v, done) := by
  have loop : ∀ items : Rows Elevator, (∀ r ∈ items, r ∈ v.coveredElevators) ->
      items.foldl (Plan.planElevator period) (v, done) = (v, done) := by
    intro items
    induction items with
    | nil => exact fun _ => rfl
    | cons r items ih =>
        intro covered
        rcases settled.covered r (covered r List.mem_cons_self) with ⟨row, found, kept⟩
        rw [List.foldl_cons, planElevator_settled done found kept]
        exact ih (fun r mem => covered r (List.mem_cons_of_mem _ mem))
  have same : v.planned.updateWhere (fun _ row => v.losesCover period row)
      (fun row => { row with status := .cancelled }) = v.planned := by
    unfold Rows.updateWhere
    refine (List.map_congr_left ?_).trans (List.map_id _)
    intro r mem
    exact if_neg (fun lost => Bool.false_ne_true ((settled.kept r mem).symm.trans lost))
  have none_lost : v.planned.countP (fun r => v.losesCover period r.2) = 0 := by
    rw [List.countP_eq_zero]
    intro r mem
    rw [settled.kept r mem]
    exact Bool.false_ne_true
  unfold Plan.planPeriod
  rw [loop _ (fun _ mem => mem)]
  dsimp only
  rw [same, none_lost]
  rfl

/-- A run settles both its months. -/
theorem generatePlan_settledIn (distinct : v.elevators.Distinct) (one : v.OneRow)
    (listed : period = v.today.month ∨ period = v.today.month + 1) : v.generatePlan.1.SettledIn period := by
  rcases generatePlan_spec distinct with ⟨record, rows⟩
  have covers := record.coveredElevators
  refine ⟨?_, ?_⟩
  · intro r mem
    rw [covers] at mem
    have found := Rows.get?_of_mem (distinct_covered distinct) mem
    have technician : v.generatePlan.1.defaultTechnician r.2.customer = v.defaultTechnician r.2.customer := by
      unfold Plan.defaultTechnician
      rw [record.userCustomers]
    refine ⟨v.planRow r.1 r.2 period, ?_, ?_⟩
    · rw [rows, if_pos listed, Plan.replanned, found]
    · rw [technician]
      exact planRow_settled v r.1 r.2 period
  · intro r mem
    by_contra lost
    unfold Plan.losesCover at lost
    rw [Bool.not_eq_false, Bool.and_eq_true, covers] at lost
    rcases of_decide_eq_true lost.1 with ⟨rfl, open_⟩
    have here := one.generatePlan.rowFor_of_mem mem
    rw [rows, if_pos listed, Plan.replanned] at here
    cases found : v.coveredElevators.get? r.2.elevator with
    | some lift =>
        have covered := Rows.mem_of_get? found
        rw [Bool.not_eq_true', List.any_eq_false] at lost
        exact lost.2 _ covered (decide_eq_true rfl)
    | none =>
        rw [found] at here
        rcases Option.map_eq_some_iff.mp here with ⟨row, -, left⟩
        exact uncovered_kept row (left ▸ open_)

theorem generatePlan_again (distinct : v.elevators.Distinct) (one : v.OneRow) :
    v.generatePlan.1.generatePlan = (v.generatePlan.1, ⟨0, 0, 0, []⟩) := by
  have today := (generatePlan_spec distinct).1.today
  have this_month := generatePlan_settledIn distinct one (.inl rfl)
  have next_month := generatePlan_settledIn distinct one (.inr rfl)
  rw [Plan.generatePlan, today, List.foldl_cons, this_month.planPeriod, List.foldl_cons, next_month.planPeriod]
  rfl

/-! ## Rows no run changes -/

theorem Plan.OneRow.same_row (one : v.OneRow) {r : Nat × PlannedVisit} (mem : r ∈ v.planned)
    (found : v.rowFor elevator period = some row) (lift : r.2.elevator = elevator) (month : r.2.period = period) :
    r.2 = row := by
  have here := one.rowFor_of_mem mem
  rw [lift, month, found] at here
  exact (Option.some.inj here).symm

theorem mem_updateWhere {planned : Rows PlannedVisit} {r : Nat × PlannedVisit} (mem : r ∈ planned)
    (test : PlannedVisit -> Bool) (f : PlannedVisit -> PlannedVisit) (passed : test r.2 = false) :
    r ∈ planned.updateWhere (fun _ row => test row) f :=
  List.mem_map.mpr ⟨r, mem, if_neg (fun passes => Bool.false_ne_true (passed.symm.trans passes))⟩

/-- The loop writes to the row of its lift and month alone, and not where that is fixed. -/
theorem planElevator_fixed {acc : Plan × PlanRun} (one : acc.1.OneRow) {r : Nat × PlannedVisit} (fixed : Fixed r.2)
    (mem : r ∈ acc.1.planned) (lift : Nat × Elevator) : r ∈ (Plan.planElevator period acc lift).1.planned := by
  unfold Plan.planElevator
  dsimp only
  cases found : acc.1.rowFor lift.1 period with
  | none => exact List.mem_append_left _ mem
  | some row =>
      rcases followTheFacts_spec row (dueDateIn period lift.2.nextMaintenanceDate)
        (acc.1.defaultTechnician lift.2.customer) with ⟨elevator, month, -⟩
      have done := fun done : row.status = .done => followTheFacts_done done (dueDateIn period lift.2.nextMaintenanceDate)
        (acc.1.defaultTechnician lift.2.customer)
      rcases rowOf_some found with ⟨rowElevator, rowMonth, -⟩
      dsimp only
      generalize followTheFacts row (dueDateIn period lift.2.nextMaintenanceDate)
        (acc.1.defaultTechnician lift.2.customer) = changed at elevator month done
      by_cases edited : row.manuallyEdited = true
      · rw [if_pos edited]
        exact mem
      by_cases nothing : changed.2 = []
      · rw [if_neg edited, if_pos nothing]
        exact mem
      have other : ¬ (r.2.elevator = lift.1 ∧ r.2.period = period) := by
        rintro ⟨here, now⟩
        rw [one.same_row mem found here now] at fixed
        exact fixed.elim edited (fun closed => nothing (congrArg Prod.snd (done closed)))
      have saved : r ∈ (acc.1.saveRow changed.1).planned := by
        refine mem_updateWhere mem (fun other => decide (other.elevator = changed.1.elevator ∧
          other.period = changed.1.period)) (fun _ => changed.1) ?_
        rw [elevator, month, rowElevator, rowMonth]
        exact decide_eq_false other
      rw [if_neg edited, if_neg nothing]
      dsimp only
      split
      · rw [(sync_spec ..).2]
        exact List.mem_map.mpr ⟨r, saved, Prod.ext rfl (synced_other other)⟩
      · exact saved

theorem planPeriod_fixed {acc : Plan × PlanRun} (one : acc.1.OneRow) {r : Nat × PlannedVisit} (fixed : Fixed r.2)
    (mem : r ∈ acc.1.planned) (period : Int) : r ∈ (Plan.planPeriod acc period).1.planned := by
  have loop : ∀ items : Rows Elevator, r ∈ (items.foldl (Plan.planElevator period) acc).1.planned := by
    intro items
    induction items generalizing acc with
    | nil => exact mem
    | cons lift items ih => exact ih (one.planElevator period lift) (planElevator_fixed one fixed mem lift)
  refine mem_updateWhere (loop acc.1.coveredElevators) (Plan.losesCover _ period)
    (fun row => { row with status := .cancelled }) ?_
  unfold Plan.losesCover
  rw [Bool.and_eq_false_imp]
  intro loses
  rcases of_decide_eq_true loses with ⟨-, planned, unedited⟩
  rcases fixed with edited | done
  · rw [edited] at unedited
    cases unedited
  · rw [done] at planned
    cases planned

theorem generatePlan_fixed (one : v.OneRow) {r : Nat × PlannedVisit} (fixed : Fixed r.2) (mem : r ∈ v.planned) :
    r ∈ v.generatePlan.1.planned := by
  have first : r ∈ (Plan.planPeriod (v, ⟨0, 0, 0, []⟩) v.today.month).1.planned :=
    planPeriod_fixed one fixed mem v.today.month
  exact planPeriod_fixed (one.planPeriod v.today.month) fixed first (v.today.month + 1)

/-- The second run of a day does nothing and leaves everything as it is, and no run touches a row edited by hand or
done. -/
theorem generatePlan_idempotent (distinct : v.elevators.Distinct) (one : v.OneRow) :
    v.generatePlan.1.generatePlan = (v.generatePlan.1, ⟨0, 0, 0, []⟩) ∧
      ∀ r ∈ v.planned, Fixed r.2 -> r ∈ v.generatePlan.1.planned :=
  ⟨generatePlan_again distinct one, fun _ mem fixed => generatePlan_fixed one fixed mem⟩

/-- A lift whose rows of August and September 2026 were cancelled before its cover came back. -/
def coverBack : Plan := run Plan.step (Plan.empty ((Calendar.Date.first 24319).addDays 2)) [
  .createElevator 0 30,
  .cover [(0, 0)],
  .generatePlan,
  .cover [],
  .generatePlan,
  .cover [(0, 0)]]

theorem generatePlan_idempotent_reopened :
    (coverBack.generatePlan.1.generatePlan = (coverBack.generatePlan.1, ⟨0, 0, 0, []⟩) ∧
      ∀ r ∈ coverBack.planned, Fixed r.2 -> r ∈ coverBack.generatePlan.1.planned) ∧
    coverBack.generatePlan.2 = ⟨0, 2, 0, []⟩ :=
  ⟨generatePlan_idempotent (by decide +kernel) (by unfold Plan.OneRow; decide +kernel), by decide +kernel⟩

end Maintenance
end Shiftlush
