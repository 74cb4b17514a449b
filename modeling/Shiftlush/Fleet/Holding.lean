import Shiftlush.Fleet.Finished

namespace Shiftlush
namespace Fleet
namespace Firm

open Calendar (Date)
open Transitions (run everyStep)

/-!
# A lift's status and the line that holds it

`uncontracted` is "derived from whether an open contract line exists, but
stored".  The contract services write it as they open and close lines, and the
services of faults and inspections leave it.  The lift API does not: it accepts
any other status for a lift that nothing holds.
-/

variable {s s' : Firm}

/-- A lift is `uncontracted` when no open line of an unfinished contract holds
it, and only then. -/
def StatusLaw (s : Firm) : Prop :=
  ∀ elevator status, s.status elevator = some status ->
    (status = .uncontracted ↔ ¬ ∃ r ∈ s.lines, r.2.elevator = elevator ∧ r.2.isOpen = true ∧
      ∃ contract, s.contracts.get? r.2.contract = some contract ∧ contract.status.isFinished = false)

/-- The same of open lines of any contract. -/
def Agrees (s : Firm) : Prop :=
  ∀ elevator status, s.status elevator = some status ->
    (status = .uncontracted ↔ s.isHeld elevator = false)

theorem statusLaw_iff (standing : s.Standing) : s.StatusLaw ↔ s.Agrees := by
  have holding : ∀ elevator, s.isHeld elevator = false ↔
      ¬ ∃ r ∈ s.lines, r.2.elevator = elevator ∧ r.2.isOpen = true ∧
        ∃ contract, s.contracts.get? r.2.contract = some contract ∧
          contract.status.isFinished = false := by
    intro elevator
    rw [← Bool.not_eq_true, isHeld_iff, not_iff_not]
    constructor
    · rintro ⟨r, mem, lift, isOpen⟩
      exact ⟨r, mem, lift, isOpen, standing r mem isOpen⟩
    · rintro ⟨r, mem, lift, isOpen, _⟩
      exact ⟨r, mem, lift, isOpen⟩
  constructor
  · intro law elevator status found
    rw [holding]
    exact law elevator status found
  · intro agrees elevator status found
    rw [← holding]
    exact agrees elevator status found

/-! ## Holding, as lines are opened and closed -/

theorem isHeld_of_lines {elevator : Nat} (same : s'.lines = s.lines) :
    s'.isHeld elevator = s.isHeld elevator := by
  unfold isHeld
  rw [same]

/-- A contract that lets go of its lifts leaves them held by nothing. -/
theorem isHeld_release (keyed : s.Keyed) (id : Nat) (day : Date) (elevator : Nat) :
    (s.release id day).isHeld elevator =
      (s.isHeld elevator && decide (elevator ∉ (s.openLines id).map (·.2.elevator))) := by
  rw [Bool.eq_iff_iff, Bool.and_eq_true, decide_eq_true_eq, isHeld_iff, isHeld_iff]
  constructor
  · rintro ⟨r, mem, lift, isOpen⟩
    rcases (mem_closeLines_open isOpen).mp mem with ⟨old, other⟩
    refine ⟨⟨r, old, lift, isOpen⟩, ?_⟩
    intro listed
    rcases List.mem_map.mp listed with ⟨r', opened, lift'⟩
    rcases mem_openLines.mp opened with ⟨old', here, isOpen'⟩
    have one := keyed.once r old r' old' isOpen isOpen' (lift.trans lift'.symm)
    rw [one] at other
    exact other here
  · rintro ⟨⟨r, mem, lift, isOpen⟩, spared⟩
    refine ⟨r, (mem_closeLines_open isOpen).mpr ⟨mem, ?_⟩, lift, isOpen⟩
    intro here
    apply spared
    exact List.mem_map.mpr ⟨r, mem_openLines.mpr ⟨mem, here, isOpen⟩, lift⟩

/-- Carried lifts go on being held. -/
theorem isHeld_carry {id successor : Nat} {startDate : Date} {copyTerms : Bool} (elevator : Nat) :
    (s.carry id successor startDate copyTerms).isHeld elevator = s.isHeld elevator := by
  rw [Bool.eq_iff_iff, isHeld_iff, isHeld_iff]
  constructor
  · rintro ⟨r, mem, lift, isOpen⟩
    rcases List.mem_append.mp mem with old | new
    · exact ⟨r, ((mem_closeLines_open isOpen).mp old).1, lift, isOpen⟩
    · rcases (carried_from new).2.2.2.2.2 with ⟨r', listed, same⟩
      rcases mem_openLines.mp listed with ⟨was, _, wasOpen⟩
      exact ⟨r', was, same.trans lift, wasOpen⟩
  · rintro ⟨r, mem, lift, isOpen⟩
    by_cases here : r.2.contract = id
    · rcases carried_of successor startDate copyTerms s.nextId (mem_openLines.mpr ⟨mem, here, isOpen⟩)
        with ⟨r', listed, same⟩
      exact ⟨r', List.mem_append_right _ listed, same.trans lift, (carried_from listed).2.1⟩
    · exact ⟨r, List.mem_append_left _ ((mem_closeLines_open isOpen).mpr ⟨mem, here⟩), lift, isOpen⟩

theorem isHeld_removeElevator (keyed : s.Keyed) {id elevator : Nat} {today : Date}
    (done : s.removeElevator id elevator today = .ok s') (elevator' : Nat) :
    s'.isHeld elevator' = (s.isHeld elevator' && decide (elevator' ≠ elevator)) := by
  rcases removeElevator_ok done with ⟨line, mem, _, isOpen, removed, rfl⟩
  rw [Bool.eq_iff_iff, Bool.and_eq_true, decide_eq_true_eq, isHeld_iff, isHeld_iff]
  unfold setStatus
  dsimp only
  constructor
  · rintro ⟨r, listed, lift, isOpen'⟩
    rcases Rows.mem_update.mp listed with ⟨old, other⟩ | ⟨row, _, rfl⟩
    · refine ⟨⟨r, old, lift, isOpen'⟩, ?_⟩
      intro same
      have one := keyed.once r old line mem isOpen' isOpen (lift.trans (same.trans removed.symm))
      rw [one] at other
      exact other rfl
    · cases isOpen'
  · rintro ⟨⟨r, old, lift, isOpen'⟩, other⟩
    refine ⟨r, Rows.mem_update.mpr (Or.inl ⟨old, ?_⟩), lift, isOpen'⟩
    intro same
    have one := Rows.unique keyed.distinct old mem same
    rw [← lift, one] at other
    exact other removed

/-! ## Which requests keep the agreement -/

/-- No status is given to a lift that has no contract, on its creation or after. -/
def statusAllowed (s : Firm) : Event -> Bool
  | .createElevator status => decide (status = none ∨ status = some .uncontracted)
  | .editElevator id status =>
      decide (status = none ∨ status = some .uncontracted ∨ s.status id ≠ some .uncontracted)
  | _ => true

def keepsStatus (s : Firm) (event : Event) : Bool := s.keepsReleased event && s.statusAllowed event

namespace Agrees

/-- Neither the line nor the status changes. -/
theorem of_same (agrees : s.Agrees) (lines : s'.lines = s.lines)
    (status : ∀ elevator, s'.status elevator = s.status elevator) : s'.Agrees := by
  intro elevator now found
  rw [status] at found
  rw [isHeld_of_lines lines]
  exact agrees elevator now found

theorem served (agrees : s.Agrees) (served : Served s s') : s'.Agrees := by
  intro elevator now found
  rw [isHeld_of_lines served.lines]
  rcases served.status elevator with same | ⟨before, after, was, is, toggles⟩
  · rw [same] at found
    exact agrees elevator now found
  · rw [is] at found
    cases found
    rw [← agrees elevator before was]
    unfold Toggles at toggles
    rcases toggles with same | ⟨running, stopped⟩ | ⟨stopped, running⟩
    · rw [same]
    · rw [running, stopped]
      simp only [reduceCtorEq]
    · rw [running, stopped]
      simp only [reduceCtorEq]

theorem release (agrees : s.Agrees) (keyed : s.Keyed) (id : Nat) (day : Date) :
    (s.release id day).Agrees := by
  intro elevator now found
  rw [status_release] at found
  rw [isHeld_release keyed]
  split at found
  · rename_i let_go
    rcases Option.map_eq_some_iff.mp found with ⟨_, _, rfl⟩
    simp [let_go]
  · rename_i spared
    rw [decide_eq_true spared, Bool.and_true]
    exact agrees elevator now found

theorem handOver (agrees : s.Agrees) (keyed : s.Keyed) {id successor : Nat} {startDate : Date}
    {carryElevators copyTerms : Bool} :
    (s.handOver id successor startDate carryElevators copyTerms).Agrees := by
  unfold Firm.handOver
  split
  · intro elevator now found
    rw [isHeld_carry]
    exact agrees elevator now found
  · exact agrees.release keyed id startDate

theorem renew (agrees : s.Agrees) (keyed : s.Keyed) {id successor : Nat} {startDate endDate : Date}
    {carryElevators copyTerms : Bool}
    (done : s.renew id startDate endDate carryElevators copyTerms = .ok (s', successor)) :
    s'.Agrees := by
  rcases renew_ok done with ⟨contract, _, _, _, rfl⟩
  have opened : (s.withSuccessor contract id startDate endDate copyTerms).Keyed :=
    keyed.insertContract _
  have before : (s.withSuccessor contract id startDate endDate copyTerms).Agrees := agrees
  exact before.handOver opened

theorem addElevator (agrees : s.Agrees) {id elevator : Nat} {unitPrice : Option Cents} {today : Date}
    (done : s.addElevator id unitPrice today elevator = .ok s') : s'.Agrees := by
  intro elevator' now found
  rw [isHeld_addElevator done]
  rcases addElevator_ok done with ⟨lift, listed, free, rfl⟩
  by_cases here : elevator' = elevator
  · subst here
    have contracted : now ≠ .uncontracted := by
      rintro rfl
      dsimp only at found
      split at found
      · rw [status_setStatus, if_pos rfl] at found
        rcases Option.map_eq_some_iff.mp found with ⟨_, _, impossible⟩
        cases impossible
      · rename_i other
        unfold Firm.status at found
        dsimp only at found
        rw [listed] at found
        exact other (Option.some.inj found)
    simp [contracted]
  · rw [decide_eq_false here, Bool.or_false]
    apply agrees elevator' now
    dsimp only at found
    split at found
    · rw [status_setStatus, if_neg here] at found
      exact found
    · exact found

theorem createElevator (agrees : s.Agrees) (keyed : s.Keyed) {lift : Elevator}
    (uncontracted : lift.status = .uncontracted) :
    { s with elevators := s.elevators.insert s.nextId lift, nextId := s.nextId + 1 }.Agrees := by
  intro elevator now found
  by_cases last : s.nextId = elevator
  · subst last
    have absent := keyed.elevators.absent (Nat.le_refl _)
    have unheld : s.isHeld s.nextId = false := by
      rw [← Bool.not_eq_true, isHeld_iff]
      rintro ⟨r, mem, same, _⟩
      have known := keyed.known r mem
      rw [same, absent] at known
      cases known
    unfold Firm.status at found
    dsimp only at found
    rw [Rows.get?_insert_self absent] at found
    cases found
    constructor
    · intro _
      exact unheld
    · intro _
      exact uncontracted
  · unfold Firm.status at found
    dsimp only at found
    rw [Rows.get?_insert_of_ne last] at found
    exact agrees elevator now found

theorem editElevator (agrees : s.Agrees) {id : Nat} {status : Option ElevatorStatus}
    (checked : checkStatus status = .ok ()) (kept : status = none ∨ s.status id ≠ some .uncontracted) :
    { s with elevators := s.elevators.update id (fun lift =>
      { lift with status := status.getD lift.status }) }.Agrees := by
  intro elevator now found
  unfold Firm.status at found
  dsimp only at found
  rw [Rows.get?_update] at found
  split at found
  · rename_i here
    rw [Option.map_map] at found
    rcases Option.map_eq_some_iff.mp found with ⟨lift, listed, same⟩
    have was : s.status elevator = some lift.status := by
      unfold Firm.status
      rw [listed, Option.map_some]
    cases status with
    | none =>
        rw [← same]
        exact agrees elevator lift.status was
    | some chosen =>
        have contracted : lift.status ≠ .uncontracted := by
          intro free
          rcases kept with impossible | kept
          · cases impossible
          · rw [← here, was, free] at kept
            exact kept rfl
        have held : s.isHeld elevator ≠ false := fun free =>
          contracted ((agrees elevator lift.status was).mpr free)
        have selectable : chosen ≠ .uncontracted := by
          rintro rfl
          cases checked
        have now_chosen : chosen = now := same
        rw [now_chosen] at selectable
        exact iff_of_false selectable held
  · exact agrees elevator now found

theorem attempt (agrees : s.Agrees) (keyed : s.Keyed) {event : Event}
    (allowed : s.statusAllowed event = true) (done : s.attempt event = .ok s') : s'.Agrees := by
  cases event with
  | createContract new =>
      rw [createContract_ok done]
      exact agrees
  | editContract id changes =>
      rcases editContract_ok.mp done with ⟨_, _, _, rfl⟩
      exact agrees
  | addElevators id elevators unitPrice today =>
      rcases bind_ok.mp done with ⟨_, _, rest⟩
      exact addElevators_rule (fun _ _ _ agrees turn => agrees.addElevator turn) agrees rest
  | removeElevator id elevator today =>
      rcases bind_ok.mp done with ⟨_, _, rest⟩
      intro elevator' now found
      rw [isHeld_removeElevator keyed rest]
      rcases removeElevator_ok rest with ⟨line, _, _, _, _, rfl⟩
      rw [status_setStatus] at found
      split at found
      · rename_i here
        rcases Option.map_eq_some_iff.mp found with ⟨_, _, rfl⟩
        simp [here]
      · rename_i other
        rw [decide_eq_true other, Bool.and_true]
        exact agrees elevator' now found
  | terminate id day reason =>
      rcases terminate_ok done with ⟨_, _, _, rfl⟩
      exact agrees.release keyed id day
  | renew id startDate endDate carryElevators copyTerms =>
      rcases bind_ok.mp done with ⟨⟨renewed, successor⟩, first, rest⟩
      cases rest
      exact agrees.renew keyed first
  | expire id today =>
      rcases expire_ok done with rfl | ⟨contract, _, _, rfl | ⟨renewed, _, _, first, rfl | rfl⟩⟩
      · exact agrees
      · exact agrees.release keyed id _
      · exact agrees.renew keyed first
      · exact (agrees.renew keyed first).of_same rfl (fun _ => rfl)
  | createElevator status =>
      rcases bind_ok.mp done with ⟨_, checked, rest⟩
      cases rest
      rcases of_decide_eq_true allowed with rfl | rfl
      · exact agrees.createElevator keyed rfl
      · cases checked
  | editElevator id status =>
      unfold Firm.attempt Firm.editElevator at done
      dsimp only at done
      split at done
      · cases done
      · rcases bind_ok.mp done with ⟨_, checked, rest⟩
        cases rest
        rcases of_decide_eq_true allowed with unset | refused | contracted
        · exact agrees.editElevator checked (Or.inl unset)
        · rw [refused] at checked
          cases checked
        · exact agrees.editElevator checked (Or.inr contracted)
  | _ => exact agrees.served (attempt_served (by rfl) done)

end Agrees

/-! ## Every other request breaks it -/

/-- A lift that nothing holds, under another status. -/
theorem not_statusLaw (elevator : Nat) (status : ElevatorStatus) (found : s.status elevator = some status)
    (contracted : status ≠ .uncontracted) (free : s.isHeld elevator = false) : ¬ s.StatusLaw := by
  intro law
  apply contracted
  apply (law elevator status found).mpr
  rintro ⟨r, mem, lift, isOpen, _⟩
  have held : s.isHeld elevator = true := isHeld_iff.mpr ⟨r, mem, lift, isOpen⟩
  rw [free] at held
  cases held

/-- Where the law holds and open lines agree with it, no finished contract has one. -/
theorem standing_of_statusLaw (keyed : s.Keyed) (agrees : s.Agrees) (law : s.StatusLaw) :
    s.Standing := by
  intro r mem isOpen
  have known := keyed.known r mem
  rw [← isSome_status] at known
  rcases Option.isSome_iff_exists.mp known with ⟨status, found⟩
  have held : s.isHeld r.2.elevator = true := isHeld_iff.mpr ⟨r, mem, rfl, isOpen⟩
  have contracted : status ≠ .uncontracted := by
    intro free
    rw [(agrees r.2.elevator status found).mp free] at held
    cases held
  have holder := mt (law r.2.elevator status found).mpr contracted
  rcases not_not.mp holder with ⟨r', mem', lift, isOpen', unfinished⟩
  rw [← keyed.once r' mem' r mem isOpen' isOpen lift]
  exact unfinished

theorem checkStatus_ok {status : Option ElevatorStatus} :
    checkStatus status = .ok () ↔ status ≠ some .uncontracted := by
  unfold checkStatus
  split
  · rename_i refused
    simp only [reduceCtorEq, refused, ne_eq, not_true_eq_false]
  · rename_i accepted
    simp only [ne_eq, accepted, not_false_eq_true]

theorem statusAllowed_of_statusLaw (keyed : s.Keyed) (agrees : s.Agrees) {event : Event}
    (after : (s.step event).StatusLaw) : s.statusAllowed event = true := by
  by_contra broken
  cases event with
  | createElevator status =>
      rcases not_or.mp (mt decide_eq_true broken) with ⟨given, selectable⟩
      rcases Option.ne_none_iff_exists'.mp given with ⟨chosen, rfl⟩
      have done : s.attempt (.createElevator (some chosen)) = .ok { s with
          elevators := s.elevators.insert s.nextId ⟨chosen, none, .none, none, "", ""⟩
          nextId := s.nextId + 1 } :=
        bind_ok.mpr ⟨(), checkStatus_ok.mpr selectable, rfl⟩
      have absent := keyed.elevators.absent (Nat.le_refl _)
      rw [step_of_ok done] at after
      refine not_statusLaw s.nextId chosen ?_ ?_ ?_ after
      · unfold Firm.status
        dsimp only
        rw [Rows.get?_insert_self absent]
        rfl
      · intro same
        exact selectable (congrArg some same)
      · rw [← Bool.not_eq_true, isHeld_iff]
        rintro ⟨r, mem, same, _⟩
        have known := keyed.known r mem
        rw [same, absent] at known
        cases known
  | editElevator id status =>
      have refused := mt decide_eq_true broken
      rw [not_or, not_or, not_not] at refused
      rcases refused with ⟨given, selectable, free⟩
      rcases Option.ne_none_iff_exists'.mp given with ⟨chosen, rfl⟩
      have known : (s.elevators.get? id).isSome = true := by
        rw [← isSome_status, free, Option.isSome_some]
      have done : s.attempt (.editElevator id (some chosen)) = .ok (s.setStatus id chosen) := by
        unfold Firm.attempt Firm.editElevator
        dsimp only
        rw [if_neg (by rw [← Option.not_isSome, known]; decide)]
        exact bind_ok.mpr ⟨(), checkStatus_ok.mpr selectable, rfl⟩
      rw [step_of_ok done] at after
      refine not_statusLaw id chosen ?_ ?_ ?_ after
      · rw [status_setStatus, if_pos rfl, free, Option.map_some]
      · intro same
        exact selectable (congrArg some same)
      · exact (agrees id .uncontracted free).mp rfl
  | _ => exact broken rfl

/-! ## The law over runs -/

structure Agreed (s : Firm) : Prop where
  keyed : s.Keyed
  standing : s.Standing
  agrees : s.Agrees

theorem Agreed.step (agreed : s.Agreed) {event : Event} (kept : s.keepsStatus event = true) :
    (s.step event).Agreed := by
  unfold keepsStatus at kept
  rw [Bool.and_eq_true] at kept
  have contracts := standing_step kept.1 ⟨agreed.keyed, agreed.standing⟩
  refine ⟨contracts.1, contracts.2, ?_⟩
  unfold Firm.step
  cases done : s.attempt event with
  | error failure => exact agreed.agrees
  | ok s' => exact agreed.agrees.attempt agreed.keyed kept.2 done

theorem keepsStatus_of_statusLaw (agreed : s.Agreed) {event : Event}
    (after : (s.step event).StatusLaw) : s.keepsStatus event = true := by
  have allowed := statusAllowed_of_statusLaw agreed.keyed agreed.agrees after
  have agrees : (s.step event).Agrees := by
    unfold Firm.step
    cases done : s.attempt event with
    | error failure => exact agreed.agrees
    | ok s' => exact agreed.agrees.attempt agreed.keyed allowed done
  have standing := standing_of_statusLaw (agreed.keyed.step event) agrees after
  unfold keepsStatus
  rw [keepsReleased_of_standing standing, allowed]
  rfl

theorem agreed_empty : empty.Agreed where
  keyed := keyed_empty
  standing := standing_empty
  agrees := by
    intro elevator status found
    cases found

/-- A lift created with a status of its own. -/
theorem active_without_contract :
    ¬ (run step empty [.createElevator (some .active)]).StatusLaw := by
  apply not_statusLaw 0 .active
  · decide +kernel
  · decide
  · decide +kernel

/-- Statuses and lines agree as long as every request keeps contracts and lines
in order and gives no status to a lift without a contract, and no longer. -/
theorem status_agrees (events : List Event) :
    (∀ before, before <+: events -> (run step empty before).StatusLaw) ↔
      everyStep step keepsStatus empty events = true := by
  constructor
  · intro within
    exact Transitions.everyStep_of_law (J := Agreed) (L := StatusLaw)
      (fun _ _ kept agreed => agreed.step kept)
      (fun _ _ agreed after => keepsStatus_of_statusLaw agreed after) agreed_empty within
  · rintro kept before ⟨after, rfl⟩
    have sofar := (Transitions.everyStep_append.mp kept).1
    have agreed := Transitions.run_invariant_of_everyStep (J := Agreed)
      (fun _ _ kept agreed => agreed.step kept) sofar agreed_empty
    exact (statusLaw_iff agreed.standing).mpr agreed.agrees

end Firm
end Fleet
end Shiftlush
