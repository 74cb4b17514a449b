import Shiftlush.Fleet.RedLabel

namespace Shiftlush
namespace Fleet

open Calendar (Date)
open Transitions (run everyStep)

/-!
# What puts a lift back in service

`sync_elevator` restores a lift whose label was red and no longer is.  The
status does not say what put the lift out of service, so a red label that comes
and goes while another stop stands takes that stop with it.
-/

namespace Firm

variable {s s' : Firm}

/-! ## A lift carries its latest inspection -/

def Carries (lift : Elevator) : Option Inspection -> Prop
  | none => lift.inspectionLabel = .none
  | some latest =>
      lift.lastInspectionDate = some latest.inspectedOn ∧
        lift.inspectionLabel = latest.label.toInspectionLabel ∧
        lift.nextInspectionDate = some latest.nextInspectionDue ∧
        lift.inspectionBody = latest.inspectionBody ∧
        lift.inspectionReportNumber = latest.reportNumber

def Copied (s : Firm) : Prop :=
  ∀ elevator lift, s.elevators.get? elevator = some lift -> Carries lift (s.latest elevator)

theorem carries_restamp {lift : Elevator} {latest : Option Inspection} (status : ElevatorStatus) :
    Carries lift latest -> Carries { lift with status := status } latest := by
  intro carries
  cases latest with
  | none => exact carries
  | some latest => exact carries

theorem copied_attempt (keyed : s.Keyed) (copied : s.Copied) {event : Event}
    (done : s.attempt event = .ok s') : s'.Copied := by
  intro elevator lift found
  cases examines : event.isExamination with
  | true =>
      rcases attempt_examination keyed examines done with ⟨written, examined, rfl, lifts, others, unexamined⟩
      rw [latest_of_inspections (inspections_syncElevator written examined)]
      rw [get?_syncElevator, lifts] at found
      by_cases here : elevator = examined
      · subst here
        rw [if_pos rfl] at found
        rcases Option.map_eq_some_iff.mp found with ⟨before, listed, rfl⟩
        cases latest : written.latest elevator with
        | none =>
            rw [Option.elim_none]
            have carries := copied elevator before listed
            rw [unexamined latest] at carries
            exact carries
        | some inspection => exact ⟨rfl, rfl, rfl, rfl, rfl⟩
      · rw [if_neg here] at found
        rw [others elevator here]
        exact copied elevator lift found
  | false =>
      cases creates : event.isCreation with
      | true =>
          cases event with
          | createElevator status =>
              rcases bind_ok.mp done with ⟨_, _, rest⟩
              cases rest
              dsimp only at found
              by_cases last : s.nextId = elevator
              · subst last
                rw [Rows.get?_insert_self (keyed.elevators.absent (Nat.le_refl _))] at found
                cases found
                cases latest : s.latest s.nextId with
                | none => rw [latest_of_inspections (s := s) (by rfl), latest]; rfl
                | some inspection =>
                    rcases mem_of_latest latest with ⟨id, mem, own⟩
                    have known := keyed.inspected _ mem
                    dsimp only at known
                    rw [own, keyed.elevators.absent (Nat.le_refl _)] at known
                    cases known
              · rw [Rows.get?_insert_of_ne last] at found
                exact copied elevator lift found
          | _ => cases creates
      | false =>
          rcases attempt_restamped examines creates done with ⟨stamp, restamped, _⟩
          rw [latest_of_inspections restamped.inspections]
          rw [restamped.lifts] at found
          rcases Option.map_eq_some_iff.mp found with ⟨before, listed, rfl⟩
          exact carries_restamp _ (copied elevator before listed)

theorem copied_step (now : s.Keyed ∧ s.Copied) (event : Event) :
    (s.step event).Keyed ∧ (s.step event).Copied := by
  refine ⟨now.1.step event, ?_⟩
  unfold step
  cases done : s.attempt event with
  | error failure => exact now.2
  | ok s' => exact copied_attempt now.1 now.2 done

theorem copied_empty : empty.Copied := by
  intro elevator lift found
  cases found

/-! ## A lift is restored by an inspection -/

/-- The latest inspection leaves the lift usable. -/
def isCleared (s : Firm) (elevator : Nat) : Bool :=
  (s.latest elevator).any (fun inspection => inspection.label.usable)

/-- The label was red, and is not after the request. -/
theorem restored_iff (keyed : s.Keyed) (copied : s.Copied) {event : Event}
    (examines : event.isExamination = true) {elevator : Nat}
    (stopped : s.status elevator = some .outOfService) :
    (s.step event).status elevator = some .active ↔
      s.isRed elevator = true ∧ (s.step event).isCleared elevator = true := by
  rcases Option.map_eq_some_iff.mp stopped with ⟨lift, listed, idle⟩
  have carries := copied elevator lift listed
  have label : lift.inspectionLabel = .red ↔ s.isRed elevator = true := by
    unfold isRed
    cases latest : s.latest elevator with
    | none =>
        rw [latest] at carries
        unfold Carries at carries
        rw [carries]
        simp only [reduceCtorEq, Option.any_none, Bool.false_eq_true]
    | some inspection =>
        rw [latest] at carries
        rw [carries.2.1, Option.any_some, decide_eq_true_eq]
        cases inspection.label with
        | red => simp only [Label.toInspectionLabel]
        | _ => simp only [Label.toInspectionLabel, reduceCtorEq]
  unfold step
  cases done : s.attempt event with
  | error failure =>
      dsimp only
      rw [stopped]
      constructor
      · intro impossible
        cases impossible
      · rintro ⟨red, cleared⟩
        unfold isRed at red
        unfold isCleared at cleared
        cases latest : s.latest elevator with
        | none =>
            rw [latest] at red
            cases red
        | some inspection =>
            rw [latest, Option.any_some] at red cleared
            rw [of_decide_eq_true red] at cleared
            cases cleared
  | ok s' =>
      dsimp only
      rcases attempt_examination keyed examines done with ⟨written, examined, rfl, lifts, others, _⟩
      have same := latest_of_inspections (inspections_syncElevator written examined) elevator
      unfold isCleared Firm.status
      rw [same, get?_syncElevator, lifts, listed, ← label]
      by_cases here : elevator = examined
      · subst here
        rw [if_pos rfl, Option.map_some, Option.map_some]
        cases latest : written.latest elevator with
        | none =>
            rw [Option.elim_none, Option.any_none, idle]
            simp
        | some inspection =>
            rw [Option.elim_some, Option.any_some]
            unfold Elevator.sync
            dsimp only
            rw [idle]
            cases inspection.label.usable with
            | false => simp
            | true => by_cases red : lift.inspectionLabel = .red <;> simp [red]
      · rw [if_neg here, Option.map_some, idle, others elevator here]
        simp only [Option.some.injEq, reduceCtorEq, false_iff, not_and, Bool.not_eq_true]
        intro red
        have was := label.mp red
        unfold isRed at was
        cases latest : s.latest elevator with
        | none => rfl
        | some inspection =>
            rw [latest, Option.any_some] at was
            rw [Option.any_some, of_decide_eq_true was]
            rfl

/-- Reported faults that stopped the lift and are not done with. -/
def faultStands (s : Firm) (elevator : Nat) : Bool :=
  s.faults.any (fun r => decide (r.2.elevator = elevator) && r.2.stoppedElevator && r.2.status.isCancellable)

/-- The lifts a request of the office sets out of service. -/
def officeStops (s : Firm) : Event -> List Nat
  | .createElevator (some .outOfService) => [s.nextId]
  | .editElevator id (some .outOfService) => [id]
  | _ => []

end Firm

/-! ## The causes, watched -/

/-- The firm, and the lifts that are out of service on the office's word.  No
request reads the list. -/
structure Watch where
  firm : Firm
  office : List Nat
  deriving DecidableEq

namespace Watch

def empty : Watch := ⟨.empty, []⟩

/-- The office's word holds until the lift has another status. -/
def step (w : Watch) (event : Event) : Watch where
  firm := w.firm.step event
  office := (w.firm.officeStops event ++ w.office).filter (fun elevator =>
    decide ((w.firm.step event).status elevator = some .outOfService))

/-- A cause other than the label keeps the lift out of service. -/
def stopStands (w : Watch) (elevator : Nat) : Bool :=
  w.firm.faultStands elevator || decide (elevator ∈ w.office)

/-- An inspection restores a lift only when a red label, and nothing else, keeps
it out of service. -/
def Returns (w : Watch) (event : Event) : Prop :=
  event.isExamination = true -> ∀ elevator, w.firm.status elevator = some .outOfService ->
    (w.firm.step event).status elevator = some .active ->
      w.firm.isRed elevator = true ∧ w.stopStands elevator = false

/-- No inspection clears the red label of a lift while another stop stands. -/
def keepsStopped (w : Watch) (event : Event) : Bool :=
  !(event.isExamination && w.firm.elevators.any (fun r =>
    decide (w.firm.status r.1 = some .outOfService) && w.firm.isRed r.1 &&
      (w.firm.step event).isCleared r.1 && w.stopStands r.1))

theorem firm_run (w : Watch) (events : List Event) :
    (run step w events).firm = run Firm.step w.firm events := by
  induction events generalizing w with
  | nil => rfl
  | cons event events ih => exact ih (w.step event)

theorem returns_iff {w : Watch} (keyed : w.firm.Keyed) (copied : w.firm.Copied) (event : Event) :
    w.Returns event ↔ w.keepsStopped event = true := by
  unfold keepsStopped
  rw [Bool.not_eq_true', ← Bool.not_eq_true, Bool.and_eq_true, List.any_eq_true]
  constructor
  · rintro returns ⟨examines, r, _, clears⟩
    simp only [Bool.and_eq_true, decide_eq_true_eq] at clears
    rcases clears with ⟨⟨⟨stopped, red⟩, cleared⟩, stands⟩
    have restored := (Firm.restored_iff keyed copied examines stopped).mpr ⟨red, cleared⟩
    rw [(returns examines r.1 stopped restored).2] at stands
    cases stands
  · intro kept examines elevator stopped restored
    rcases (Firm.restored_iff keyed copied examines stopped).mp restored with ⟨red, cleared⟩
    refine ⟨red, ?_⟩
    rw [← Bool.not_eq_true]
    intro stands
    rcases Option.map_eq_some_iff.mp stopped with ⟨lift, listed, _⟩
    apply kept
    refine ⟨examines, (elevator, lift), Rows.mem_of_get? listed, ?_⟩
    dsimp only
    rw [stopped, red, cleared, stands]
    rfl

/-- A green result while the reported fault is open. -/
theorem green_label_restores_stopped_lift : ¬ (run step empty
    [.createElevator (some .active), .reportByStaff 0 .high none true false ⟨0, .first 24312⟩,
      .recordInspection (Firm.inspected 0 .red (.first 24313)) 1]).Returns
    (.recordInspection (Firm.inspected 0 .green (.first 24314)) 2) := by
  intro returns
  have restored := returns rfl 0 (by decide +kernel) (by decide +kernel)
  have stands : (run step empty
    [.createElevator (some .active), .reportByStaff 0 .high none true false ⟨0, .first 24312⟩,
      .recordInspection (Firm.inspected 0 .red (.first 24313)) 1]).stopStands 0 = true := by decide +kernel
  rw [restored.2] at stands
  cases stands

/-- Inspections restore only the lifts that a red label alone stopped, as long as
none clears the label of a lift while another stop stands, and no longer. -/
theorem restored_by_label (events : List Event) :
    (∀ before event, before ++ [event] <+: events -> (run step empty before).Returns event) ↔
      everyStep step keepsStopped empty events = true := by
  have sound : ∀ before, (run step empty before).firm.Keyed ∧ (run step empty before).firm.Copied := by
    intro before
    rw [firm_run]
    exact Transitions.run_invariant (J := fun s : Firm => s.Keyed ∧ s.Copied)
      (fun _ event now => Firm.copied_step now event) before ⟨Firm.keyed_empty, Firm.copied_empty⟩
  rw [Transitions.everyStep_iff]
  constructor
  · intro law before event earlier
    exact (returns_iff (sound before).1 (sound before).2 event).mp (law before event earlier)
  · intro kept before event earlier
    exact (returns_iff (sound before).1 (sound before).2 event).mpr (kept before event earlier)

end Watch
end Fleet
end Shiftlush
