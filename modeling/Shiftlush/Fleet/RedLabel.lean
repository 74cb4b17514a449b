import Shiftlush.Fleet.Holding

namespace Shiftlush
namespace Fleet

open Calendar (Date)
open Transitions (run everyStep)

namespace Firm

/-!
# A red label keeps a lift out of service

`sync_elevator` stops a lift whose latest inspection is red.  Three other
requests put a lift back to `active` without looking at its label: adding it to
a contract, resolving a fault with `restore_service`, and an edit of its status.
-/

variable {s s' : Firm}

/-! ## Requests that leave the inspections -/

/-- Inspections are the same, and of a lift at most its status is written. -/
structure Restamped (s s' : Firm) (stamp : Nat -> ElevatorStatus -> ElevatorStatus) : Prop where
  inspections : s'.inspections = s.inspections
  lifts : ∀ elevator, s'.elevators.get? elevator = (s.elevators.get? elevator).map
    (fun lift => { lift with status := stamp elevator lift.status })

namespace Restamped

theorem none_of (inspections : s'.inspections = s.inspections) (elevators : s'.elevators = s.elevators) :
    Restamped s s' (fun _ status => status) where
  inspections := inspections
  lifts elevator := by
    rw [elevators]
    exact Option.map_id'.symm

/-- One lift is written. -/
theorem one (stamp : ElevatorStatus -> ElevatorStatus) (elevator : Nat) {f : Elevator -> Elevator}
    (writes : ∀ lift, f lift = { lift with status := stamp lift.status })
    (inspections : s'.inspections = s.inspections)
    (elevators : s'.elevators = s.elevators.update elevator f) :
    Restamped s s' (fun elevator' status => if elevator' = elevator then stamp status else status) where
  inspections := inspections
  lifts elevator' := by
    rw [elevators, Rows.get?_update]
    split
    · congr 1
      funext lift
      exact writes lift
    · exact Option.map_id'.symm

theorem uncontracts {elevators : List Nat} (inspections : s'.inspections = s.inspections)
    (lifts : s'.elevators = (s.uncontract elevators).elevators) :
    Restamped s s' (fun elevator status => if elevator ∈ elevators then .uncontracted else status) where
  inspections := inspections
  lifts elevator := by
    rw [lifts]
    unfold uncontract
    dsimp only
    rw [Rows.get?_map]
    · congr 1
      funext lift
      split
      · rfl
      · rfl
    · intro r
      split
      · rfl
      · rfl

theorem status {stamp : Nat -> ElevatorStatus -> ElevatorStatus} (restamped : Restamped s s' stamp)
    (elevator : Nat) : s'.status elevator = (s.status elevator).map (stamp elevator) := by
  unfold Firm.status
  rw [restamped.lifts, Option.map_map, Option.map_map]
  rfl

end Restamped

/-- The requests that put a lift in service, and the lifts they do it to. -/
def wakes (s : Firm) (event : Event) (elevator : Nat) (status : ElevatorStatus) : Prop :=
  match event with
  | .addElevators _ elevators _ _ => elevator ∈ elevators ∧ status = .uncontracted
  | .resolve id _ restoreService => restoreService = true ∧ status = .outOfService ∧
      ∃ fault, s.faults.get? id = some fault ∧ fault.status = .onSite ∧ fault.elevator = elevator
  | .editElevator id status => elevator = id ∧ status = some .active
  | _ => False

end Firm

/-- The requests that write inspections. -/
def Event.isExamination : Event -> Bool
  | .recordInspection _ _ => true
  | .editInspection _ _ => true
  | _ => false

/-- A new lift. -/
def Event.isCreation : Event -> Bool
  | .createElevator _ => true
  | _ => false

namespace Firm

variable {s s' : Firm}

/-- A lift is in service after a request if it was, or if the request puts it there. -/
def Stamps (s : Firm) (event : Event) (stamp : Nat -> ElevatorStatus -> ElevatorStatus) : Prop :=
  ∀ elevator status, stamp elevator status = .active -> status = .active ∨ s.wakes event elevator status

theorem stamps_same (s : Firm) (event : Event) : s.Stamps event (fun _ status => status) :=
  fun _ _ => Or.inl

theorem restamped_stop (s : Firm) (elevator : Nat) (event : Event) {s₁ : Firm}
    (inspections : s₁.inspections = s.inspections) (elevators : s₁.elevators = s.elevators) :
    ∃ stamp, Restamped s (s₁.stop elevator) stamp ∧ s.Stamps event stamp := by
  have stopped : (s₁.stop elevator).elevators = s.elevators.update elevator (fun lift =>
      if lift.status = .active then { lift with status := .outOfService } else lift) := by
    rw [← elevators]
    rfl
  refine ⟨_, Restamped.one (fun status => if status = .active then .outOfService else status) elevator ?_
    inspections stopped, ?_⟩
  · intro lift
    split
    · rfl
    · rfl
  · intro elevator' status now
    dsimp only at now
    split at now
    · split at now
      · cases now
      · exact Or.inl now
    · exact Or.inl now

theorem restamped_insertFault (s : Firm) (event : Event) (fault : Fault) :
    ∃ stamp, Restamped s (s.insertFault fault) stamp ∧ s.Stamps event stamp := by
  unfold insertFault
  dsimp only
  split
  · exact restamped_stop s _ event rfl rfl
  · exact ⟨_, Restamped.none_of rfl rfl, stamps_same s event⟩

theorem restamped_release (s : Firm) (event : Event) {elevators : List Nat}
    (inspections : s'.inspections = s.inspections)
    (lifts : s'.elevators = (s.uncontract elevators).elevators) :
    ∃ stamp, Restamped s s' stamp ∧ s.Stamps event stamp := by
  refine ⟨_, Restamped.uncontracts inspections lifts, ?_⟩
  intro elevator status now
  dsimp only at now
  split at now
  · cases now
  · exact Or.inl now

theorem restamped_renew (event : Event) {id successor : Nat} {startDate endDate : Date}
    {carryElevators copyTerms : Bool}
    (done : s.renew id startDate endDate carryElevators copyTerms = .ok (s', successor)) :
    ∃ stamp, Restamped s s' stamp ∧ s.Stamps event stamp := by
  rcases renew_ok done with ⟨contract, _, _, _, rfl⟩
  cases carryElevators with
  | true => exact ⟨_, Restamped.none_of rfl rfl, stamps_same s event⟩
  | false => exact restamped_release s event rfl rfl

theorem restamped_addElevators {id : Nat} {unitPrice : Option Cents} {today : Date}
    {elevators : List Nat} (done : addElevators id unitPrice today elevators s = .ok s') :
    Restamped s s' (fun elevator status =>
      if elevator ∈ elevators ∧ status = .uncontracted then .active else status) := by
  induction elevators generalizing s with
  | nil =>
      cases done
      refine ⟨rfl, ?_⟩
      intro elevator
      simp
  | cons first rest ih =>
      rcases bind_ok.mp done with ⟨next, turn, later⟩
      have tail := ih later
      rcases addElevator_ok turn with ⟨lift, found, _, rfl⟩
      refine ⟨?_, ?_⟩
      · rw [tail.inspections]
        dsimp only
        split
        · rfl
        · rfl
      · intro elevator
        rw [tail.lifts]
        dsimp only
        by_cases free : lift.status = .uncontracted
        · rw [if_pos free]
          unfold setStatus
          dsimp only
          rw [Rows.get?_update]
          by_cases here : elevator = first
          · subst here
            rw [if_pos rfl, found]
            simp [free]
          · simp [here]
        · rw [if_neg free]
          dsimp only
          by_cases here : elevator = first
          · subst here
            rw [found]
            simp [free]
          · simp [here]

/-- What touches neither a lift nor an inspection. -/
theorem restamped_elsewhere (event : Event) (inspections : s'.inspections = s.inspections)
    (elevators : s'.elevators = s.elevators) : ∃ stamp, Restamped s s' stamp ∧ s.Stamps event stamp :=
  ⟨_, Restamped.none_of inspections elevators, stamps_same s event⟩

theorem restamped_removeElevator {id elevator : Nat} {today : Date}
    (done : s.attempt (.removeElevator id elevator today) = .ok s') :
    ∃ stamp, Restamped s s' stamp ∧ s.Stamps (.removeElevator id elevator today) stamp := by
  rcases bind_ok.mp done with ⟨_, _, rest⟩
  rcases removeElevator_ok rest with ⟨line, _, _, _, _, rfl⟩
  refine ⟨_, Restamped.one (fun _ => .uncontracted) elevator (fun _ => rfl) rfl rfl, ?_⟩
  intro elevator' status now
  dsimp only at now
  split at now
  · cases now
  · exact Or.inl now

theorem restamped_expire {id : Nat} {today : Date} (done : s.attempt (.expire id today) = .ok s') :
    ∃ stamp, Restamped s s' stamp ∧ s.Stamps (.expire id today) stamp := by
  rcases expire_ok done with rfl | ⟨contract, _, _, rfl | ⟨renewed, _, _, first, rfl | rfl⟩⟩
  · exact restamped_elsewhere _ rfl rfl
  · exact restamped_release s _ rfl rfl
  · exact restamped_renew _ first
  · rcases restamped_renew (.expire id today) first with ⟨stamp, restamped, stamps⟩
    exact ⟨stamp, ⟨restamped.inspections, restamped.lifts⟩, stamps⟩

theorem restamped_editElevator {id : Nat} {status : Option ElevatorStatus}
    (done : s.attempt (.editElevator id status) = .ok s') :
    ∃ stamp, Restamped s s' stamp ∧ s.Stamps (.editElevator id status) stamp := by
  unfold Firm.attempt editElevator at done
  dsimp only at done
  split at done
  · cases done
  · rcases bind_ok.mp done with ⟨_, _, rest⟩
    cases rest
    refine ⟨_, Restamped.one (fun was => status.getD was) id (fun _ => rfl) rfl rfl, ?_⟩
    intro elevator was now
    dsimp only at now
    split at now
    · rename_i here
      cases status with
      | none => exact Or.inl now
      | some chosen => exact Or.inr ⟨here, congrArg some now⟩
    · exact Or.inl now

theorem restamped_reportByStaff {elevator : Nat} {priority : FaultPriority} {technician : Option Nat}
    {stoppedElevator someoneTrapped : Bool} {now : Now}
    (done : s.attempt (.reportByStaff elevator priority technician stoppedElevator someoneTrapped now) = .ok s') :
    ∃ stamp, Restamped s s' stamp ∧
      s.Stamps (.reportByStaff elevator priority technician stoppedElevator someoneTrapped now) stamp := by
  unfold Firm.attempt reportByStaff at done
  dsimp only at done
  split at done
  · cases done
  · cases done
    exact restamped_insertFault s _ _

theorem restamped_reportPublic {elevator : Nat} {report : PublicReport} {now : Now}
    (done : s.attempt (.reportPublic elevator report now) = .ok s') :
    ∃ stamp, Restamped s s' stamp ∧ s.Stamps (.reportPublic elevator report now) stamp := by
  unfold Firm.attempt reportPublic at done
  dsimp only at done
  split at done
  · cases done
  · split at done
    · cases done
      unfold merge
      dsimp only
      split
      · exact restamped_stop s _ _ rfl rfl
      · exact restamped_elsewhere _ rfl rfl
    · cases done
      exact restamped_insertFault s _ _

theorem restamped_reportByPortal {elevator : Nat} {report : PublicReport} {now : Now}
    (done : s.attempt (.reportByPortal elevator report now) = .ok s') :
    ∃ stamp, Restamped s s' stamp ∧ s.Stamps (.reportByPortal elevator report now) stamp := by
  unfold Firm.attempt reportByPortal at done
  dsimp only at done
  split at done
  · cases done
  · cases done
    exact restamped_insertFault s _ _

theorem restamped_resolve {id : Nat} {partsUsed : String} {restoreService : Bool}
    (done : s.attempt (.resolve id partsUsed restoreService) = .ok s') :
    ∃ stamp, Restamped s s' stamp ∧ s.Stamps (.resolve id partsUsed restoreService) stamp := by
  rcases resolve_ok done with ⟨fault, f, found, arrived, rfl⟩
  refine ⟨_, Restamped.one
    (fun status => if restoreService && decide (status = .outOfService) then .active else status)
    fault.elevator (f := fun lift =>
      if restoreService && decide (lift.status = .outOfService) then { lift with status := .active } else lift)
    ?_ rfl rfl, ?_⟩
  · intro lift
    split
    · rfl
    · rfl
  · intro elevator status now
    dsimp only at now
    split at now
    · rename_i here
      split at now
      · rename_i restored
        rw [Bool.and_eq_true, decide_eq_true_eq] at restored
        exact Or.inr ⟨restored.1, restored.2, fault, found, arrived, here.symm⟩
      · exact Or.inl now
    · exact Or.inl now

theorem attempt_restamped {event : Event} (unexamined : event.isExamination = false)
    (created : event.isCreation = false) (done : s.attempt event = .ok s') :
    ∃ stamp, Restamped s s' stamp ∧ s.Stamps event stamp := by
  cases event with
  | createContract new =>
      rw [createContract_ok done]
      exact restamped_elsewhere _ rfl rfl
  | editContract id changes =>
      rcases editContract_ok.mp done with ⟨_, _, _, rfl⟩
      exact restamped_elsewhere _ rfl rfl
  | addElevators id elevators unitPrice today =>
      rcases bind_ok.mp done with ⟨_, _, rest⟩
      refine ⟨_, restamped_addElevators rest, ?_⟩
      intro elevator status now
      dsimp only at now
      split at now
      · rename_i woken
        exact Or.inr woken
      · exact Or.inl now
  | removeElevator id elevator today => exact restamped_removeElevator done
  | terminate id day reason =>
      rcases terminate_ok done with ⟨_, _, _, rfl⟩
      exact restamped_release s _ rfl rfl
  | renew id startDate endDate carryElevators copyTerms =>
      rcases bind_ok.mp done with ⟨⟨renewed, successor⟩, first, rest⟩
      cases rest
      exact restamped_renew _ first
  | expire id today => exact restamped_expire done
  | createElevator status => cases created
  | editElevator id status => exact restamped_editElevator done
  | recordInspection new now => cases unexamined
  | editInspection id changes => cases unexamined
  | reportByStaff elevator priority technician stoppedElevator someoneTrapped now =>
      exact restamped_reportByStaff done
  | reportPublic elevator report now => exact restamped_reportPublic done
  | reportByPortal elevator report now => exact restamped_reportByPortal done
  | resolve id partsUsed restoreService => exact restamped_resolve done
  | assign fault technician =>
      rw [transition_ok done]
      exact restamped_elsewhere _ rfl rfl
  | arrive fault =>
      rw [transition_ok done]
      exact restamped_elsewhere _ rfl rfl
  | close fault now =>
      rw [transition_ok done]
      exact restamped_elsewhere _ rfl rfl
  | cancel fault =>
      rw [transition_ok done]
      exact restamped_elsewhere _ rfl rfl
  | editFault fault priority billable =>
      rcases bind_ok.mp done with ⟨_, _, rest⟩
      cases rest
      exact restamped_elsewhere _ rfl rfl

/-! ## Requests that write inspections -/

theorem mem_of_laterOf {best : Option (Nat × Inspection)} {rows : Rows Inspection}
    {r : Nat × Inspection} (found : rows.foldl laterOf best = some r) : best = some r ∨ r ∈ rows := by
  apply Transitions.foldl_picks _ found
  intro best first
  unfold laterOf
  split
  · exact Or.inr rfl
  · split
    · exact Or.inr rfl
    · exact Or.inl rfl

theorem isSome_laterOf (best : Option (Nat × Inspection)) (rows : Rows Inspection) :
    (rows.foldl laterOf best).isSome = (best.isSome || !rows.isEmpty) := by
  induction rows generalizing best with
  | nil => simp
  | cons first rows ih =>
      have kept : (laterOf best first).isSome = true := by
        unfold laterOf
        split
        · rfl
        · split
          · rfl
          · rfl
      rw [List.foldl_cons, ih, kept]
      simp

/-- A lift's latest inspection is one of its own. -/
theorem mem_of_latest {elevator : Nat} {inspection : Inspection}
    (found : s.latest elevator = some inspection) :
    ∃ id, (id, inspection) ∈ s.inspections ∧ inspection.elevator = elevator := by
  unfold latest at found
  rcases Option.map_eq_some_iff.mp found with ⟨⟨id, inspection'⟩, chosen, rfl⟩
  rcases mem_of_laterOf chosen with impossible | listed
  · cases impossible
  · rcases List.mem_filter.mp listed with ⟨mem, own⟩
    exact ⟨id, mem, of_decide_eq_true own⟩

theorem latest_eq_none {elevator : Nat} :
    s.latest elevator = none ↔ ∀ r ∈ s.inspections, r.2.elevator ≠ elevator := by
  unfold latest
  rw [Option.map_eq_none_iff, ← Option.not_isSome_iff_eq_none, isSome_laterOf, Option.isSome_none,
    Bool.false_or, Bool.not_eq_true', Bool.not_eq_false, List.isEmpty_iff, List.filter_eq_nil_iff]
  simp only [decide_eq_true_eq, ne_eq]

theorem latest_of_inspections (same : s'.inspections = s.inspections) (elevator : Nat) :
    s'.latest elevator = s.latest elevator := by
  unfold latest
  rw [same]

theorem latest_of_filter {elevator : Nat}
    (same : s'.inspections.filter (fun r => decide (r.2.elevator = elevator)) =
      s.inspections.filter (fun r => decide (r.2.elevator = elevator))) :
    s'.latest elevator = s.latest elevator := by
  unfold latest
  rw [same]

theorem inspections_syncElevator (s : Firm) (elevator : Nat) :
    (s.syncElevator elevator).inspections = s.inspections := by
  unfold syncElevator
  split
  · rfl
  · rfl

/-- The lift an inspection is written of, and what is copied onto it. -/
theorem attempt_examination (keyed : s.Keyed) {event : Event} (examines : event.isExamination = true)
    (done : s.attempt event = .ok s') : ∃ (written : Firm) (elevator : Nat),
      s' = written.syncElevator elevator ∧ written.elevators = s.elevators ∧
      (∀ elevator', elevator' ≠ elevator -> written.latest elevator' = s.latest elevator') ∧
      (written.latest elevator = none -> s.latest elevator = none) := by
  cases event with
  | recordInspection new now =>
      unfold attempt recordInspection at done
      dsimp only at done
      split at done
      · cases done
      · refine ⟨_, _, (Except.ok.inj done).symm, rfl, ?_, ?_⟩
        · intro elevator' other
          apply latest_of_filter
          unfold Rows.insert
          dsimp only
          rw [List.filter_append, List.filter_singleton, decide_eq_false other.symm]
          exact List.append_nil _
        · rw [latest_eq_none, latest_eq_none]
          intro unexamined r mem
          exact unexamined r (List.mem_append_left _ mem)
  | editInspection id changes =>
      unfold attempt editInspection at done
      dsimp only at done
      split at done
      · cases done
      · rename_i inspection found
        have own : ∀ row, (id, row) ∈ s.inspections -> row = inspection := by
          intro row mem
          have here := Rows.get?_of_mem keyed.examined mem
          rw [found] at here
          exact (Option.some.inj here).symm
        refine ⟨_, _, (Except.ok.inj done).symm, rfl, ?_, ?_⟩
        · intro elevator' other
          apply latest_of_filter
          dsimp only
          apply Rows.filter_update
          intro row mem
          rw [own row mem]
          exact ⟨decide_eq_false other.symm, decide_eq_false other.symm⟩
        · intro unexamined
          rw [latest_eq_none] at unexamined
          have edited := unexamined (id, changes.apply inspection)
            (Rows.mem_update.mpr (Or.inr ⟨inspection, Rows.mem_of_get? found, rfl⟩))
          exact absurd rfl edited
  | _ => cases examines

theorem get?_syncElevator (s : Firm) (elevator elevator' : Nat) :
    (s.syncElevator elevator).elevators.get? elevator' =
      if elevator' = elevator then
        (s.elevators.get? elevator').map (fun lift => (s.latest elevator).elim lift lift.sync)
      else s.elevators.get? elevator' := by
  unfold syncElevator
  cases s.latest elevator with
  | none =>
      dsimp only [Option.elim_none]
      split
      · exact Option.map_id'.symm
      · rfl
  | some latest =>
      dsimp only [Option.elim_some]
      rw [Rows.get?_update]

/-! ## The law -/

/-- A lift whose latest inspection is red is not in service. -/
def RedLaw (s : Firm) : Prop :=
  ∀ elevator inspection, s.latest elevator = some inspection -> inspection.label = .red ->
    s.status elevator ≠ some .active

def isRed (s : Firm) (elevator : Nat) : Bool :=
  (s.latest elevator).any (fun inspection => decide (inspection.label = .red))

theorem isRed_iff {elevator : Nat} : s.isRed elevator = true ↔
    ∃ inspection, s.latest elevator = some inspection ∧ inspection.label = .red := by
  unfold isRed
  rw [Option.any_eq_true]
  simp only [decide_eq_true_eq]

theorem redLaw_iff : s.RedLaw ↔ ∀ elevator, s.isRed elevator = true -> s.status elevator ≠ some .active := by
  constructor
  · intro law elevator red
    rcases isRed_iff.mp red with ⟨inspection, found, label⟩
    exact law elevator inspection found label
  · intro law elevator inspection found label
    exact law elevator (isRed_iff.mpr ⟨inspection, found, label⟩)

/-- No request puts a lift in service under a red label. -/
def keepsRed (s : Firm) : Event -> Bool
  | .addElevators id elevators _ _ =>
      !((s.contracts.get? id).isSome && decide (s.takes elevators) &&
        elevators.any (fun elevator =>
          s.isRed elevator && decide (s.status elevator = some .uncontracted)))
  | .resolve id _ restoreService =>
      !(restoreService && (s.faults.get? id).any (fun fault =>
        decide (fault.status = .onSite) && s.isRed fault.elevator &&
          decide (s.status fault.elevator = some .outOfService)))
  | .editElevator id status =>
      !(decide (status = some .active) && s.isRed id && (s.status id).isSome)
  | _ => true

/-- An awoken lift is one the request is kept from. -/
theorem not_red_of_wakes {event : Event} (done : s.attempt event = .ok s')
    (kept : s.keepsRed event = true) {elevator : Nat} {status : ElevatorStatus}
    (found : s.status elevator = some status) (wakes : s.wakes event elevator status) :
    s.isRed elevator = false := by
  rw [← Bool.not_eq_true]
  intro red
  cases event with
  | addElevators id elevators unitPrice today =>
      rcases wakes with ⟨listed, rfl⟩
      rcases bind_ok.mp done with ⟨contract, present, rest⟩
      have accepted : s.takes elevators := addElevators_accepts.mp ⟨s', rest⟩
      have some_red : elevators.any (fun elevator =>
          s.isRed elevator && decide (s.status elevator = some .uncontracted)) = true := by
        rw [List.any_eq_true]
        refine ⟨elevator, listed, ?_⟩
        rw [red, found]
        rfl
      unfold keepsRed at kept
      dsimp only at kept
      rw [contract_ok.mp present, decide_eq_true accepted, some_red] at kept
      cases kept
  | resolve id partsUsed restoreService =>
      rcases wakes with ⟨rfl, rfl, fault, listed, arrived, rfl⟩
      unfold keepsRed at kept
      dsimp only at kept
      rw [listed, Option.any_some, decide_eq_true arrived, red, found] at kept
      cases kept
  | editElevator id chosen =>
      rcases wakes with ⟨rfl, rfl⟩
      unfold keepsRed at kept
      dsimp only at kept
      rw [red, found] at kept
      cases kept
  | _ => exact wakes

theorem redLaw_attempt (keyed : s.Keyed) (law : s.RedLaw) {event : Event}
    (kept : s.keepsRed event = true) (done : s.attempt event = .ok s') : s'.RedLaw := by
  rw [redLaw_iff] at law ⊢
  intro elevator red running
  cases examines : event.isExamination with
  | true =>
      rcases attempt_examination keyed examines done with ⟨written, examined, rfl, lifts, others, _⟩
      have same := latest_of_inspections (inspections_syncElevator written examined) elevator
      unfold isRed at red
      rw [same] at red
      unfold Firm.status at running
      rw [get?_syncElevator, lifts] at running
      by_cases here : elevator = examined
      · subst here
        rw [if_pos rfl, Option.map_map] at running
        have written_red : written.isRed elevator = true := red
        rcases isRed_iff.mp written_red with ⟨inspection, latest, label⟩
        rcases Option.map_eq_some_iff.mp running with ⟨lift, _, status⟩
        rw [Function.comp_apply, latest, Option.elim_some] at status
        have unusable : inspection.label.usable = false := by
          rw [label]
          rfl
        unfold Elevator.sync at status
        dsimp only at status
        rw [unusable] at status
        split at status
        · cases status
        · rename_i idle
          simp only [Bool.false_eq_true, false_and, if_false] at status
          exact idle ⟨rfl, status⟩
      · rw [if_neg here] at running
        rw [others elevator here] at red
        exact law elevator red running
  | false =>
      cases creates : event.isCreation with
      | true =>
          cases event with
          | createElevator status =>
              rcases bind_ok.mp done with ⟨_, _, rest⟩
              cases rest
              by_cases last : s.nextId = elevator
              · subst last
                rcases isRed_iff.mp red with ⟨inspection, latest, _⟩
                rcases mem_of_latest latest with ⟨id, mem, own⟩
                have known := keyed.inspected _ mem
                dsimp only at known
                rw [own, keyed.elevators.absent (Nat.le_refl _)] at known
                cases known
              · unfold Firm.status at running
                dsimp only at running
                rw [Rows.get?_insert_of_ne last] at running
                exact law elevator red running
          | _ => cases creates
      | false =>
          rcases attempt_restamped examines creates done with ⟨stamp, restamped, stamps⟩
          have same := latest_of_inspections restamped.inspections elevator
          unfold isRed at red
          rw [same] at red
          rw [restamped.status] at running
          rcases Option.map_eq_some_iff.mp running with ⟨status, found, now⟩
          rcases stamps elevator status now with already | wakes
          · rw [already] at found
            exact law elevator red found
          · have calm := not_red_of_wakes done kept found wakes
            unfold isRed at calm
            rw [red] at calm
            cases calm

/-! ## Every other request breaks it -/

theorem not_redLaw (elevator : Nat) (red : s.isRed elevator = true)
    (running : s.status elevator = some .active) : ¬ s.RedLaw := by
  rw [redLaw_iff]
  intro law
  exact law elevator red running

theorem isRed_of_inspections (same : s'.inspections = s.inspections) (elevator : Nat) :
    s'.isRed elevator = s.isRed elevator := by
  unfold isRed
  rw [latest_of_inspections same]

theorem keepsRed_of_redLaw {event : Event} (after : (s.step event).RedLaw) :
    s.keepsRed event = true := by
  by_contra broken
  cases event with
  | addElevators id elevators unitPrice today =>
      unfold keepsRed at broken
      simp only [Bool.not_eq_true', Bool.not_eq_false, Bool.and_eq_true, decide_eq_true_eq,
        List.any_eq_true] at broken
      rcases broken with ⟨⟨present, accepted⟩, elevator, listed, red, free⟩
      rcases Option.isSome_iff_exists.mp present with ⟨contract, found⟩
      rcases addElevators_accepts.mpr accepted with ⟨s', rest⟩
      have done : s.attempt (.addElevators id elevators unitPrice today) = .ok s' :=
        bind_ok.mpr ⟨contract, contract_ok.mpr found, rest⟩
      have restamped := restamped_addElevators rest
      rw [step_of_ok done] at after
      refine not_redLaw elevator ?_ ?_ after
      · rw [isRed_of_inspections restamped.inspections]
        exact red
      · rw [restamped.status, free, Option.map_some, if_pos ⟨listed, rfl⟩]
  | resolve id partsUsed restoreService =>
      unfold keepsRed at broken
      simp only [Bool.not_eq_true', Bool.not_eq_false, Bool.and_eq_true, decide_eq_true_eq,
        Option.any_eq_true] at broken
      rcases broken with ⟨restores, fault, found, ⟨arrived, red⟩, stopped⟩
      have done : ∃ s', s.attempt (.resolve id partsUsed restoreService) = .ok s' := by
        unfold Firm.attempt resolve
        dsimp only
        rw [fault_ok.mpr found]
        simp [arrived, bind, Except.bind]
      rcases done with ⟨s', done⟩
      rw [step_of_ok done] at after
      rcases resolve_ok done with ⟨fault', f, found', _, rfl⟩
      rw [found] at found'
      cases found'
      refine not_redLaw fault.elevator ?_ ?_ after
      · exact red
      · unfold Firm.status at stopped ⊢
        rcases Option.map_eq_some_iff.mp stopped with ⟨lift, listed, idle⟩
        dsimp only
        rw [Rows.get?_update_self, listed, restores, Option.map_some, Option.map_some]
        simp [idle]
  | editElevator id status =>
      unfold keepsRed at broken
      simp only [Bool.not_eq_true', Bool.not_eq_false, Bool.and_eq_true, decide_eq_true_eq] at broken
      rcases broken with ⟨⟨rfl, red⟩, known⟩
      have done : s.attempt (.editElevator id (some .active)) = .ok (s.setStatus id .active) := by
        unfold Firm.attempt editElevator
        rw [isSome_status] at known
        dsimp only
        rw [if_neg (by rw [← Option.not_isSome, known]; decide)]
        exact bind_ok.mpr ⟨(), checkStatus_ok.mpr (by decide), rfl⟩
      rw [step_of_ok done] at after
      refine not_redLaw id ?_ ?_ after
      · exact red
      · rw [status_setStatus, if_pos rfl]
        rcases Option.isSome_iff_exists.mp known with ⟨status, found⟩
        rw [found, Option.map_some]
  | _ => exact broken rfl

theorem redLaw_step {event : Event} (kept : s.keepsRed event = true) (now : s.Keyed ∧ s.RedLaw) :
    (s.step event).Keyed ∧ (s.step event).RedLaw := by
  refine ⟨now.1.step event, ?_⟩
  unfold step
  cases done : s.attempt event with
  | error failure => exact now.2
  | ok s' => exact redLaw_attempt now.1 now.2 kept done

theorem redLaw_empty : empty.RedLaw := by
  intro elevator inspection found
  cases found

/-- A result, with what an inspector need not give left out. -/
def inspected (elevator : Nat) (label : Label) (inspectedOn : Date) : NewInspection where
  elevator := elevator
  inspectedOn := inspectedOn
  label := label
  follows := none
  nextInspectionDue := none
  inspectionBody := ""
  reportNumber := ""

/-- A lift under a red label is put in service by the contract it is added to. -/
theorem contract_wakes_red_lift : ¬ (run step empty
    [.createElevator none, .createContract (yearly .active),
      .recordInspection (inspected 0 .red (.first 24312)) 0,
      .addElevators 1 [0] none (.first 24313)]).RedLaw := by
  apply not_redLaw 0
  · decide +kernel
  · decide +kernel

/-- A lift under a red label stays out of service as long as no request puts one
in service that is, and no longer. -/
theorem red_label_safety (events : List Event) :
    (∀ before, before <+: events -> (run step empty before).RedLaw) ↔
      everyStep step keepsRed empty events = true := by
  constructor
  · intro within
    exact Transitions.everyStep_of_law (J := fun s => s.Keyed ∧ s.RedLaw) (L := RedLaw)
      (fun _ _ kept now => redLaw_step kept now) (fun _ _ _ after => keepsRed_of_redLaw after)
      ⟨keyed_empty, redLaw_empty⟩ within
  · rintro kept before ⟨after, rfl⟩
    have sofar := (Transitions.everyStep_append.mp kept).1
    exact (Transitions.run_invariant_of_everyStep (J := fun s => s.Keyed ∧ s.RedLaw)
      (fun _ _ kept now => redLaw_step kept now) sofar ⟨keyed_empty, redLaw_empty⟩).2

end Firm
end Fleet
end Shiftlush
