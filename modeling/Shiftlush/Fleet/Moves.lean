import Shiftlush.Outcomes
import Shiftlush.Fleet.Services

namespace Shiftlush
namespace Fleet
namespace Firm

open Calendar (Date)

/-!
# What a request can do

Each service, when it does not refuse, as the firm it leaves.  The services of
faults and inspections write no contract and no contract line, and move a lift
only between `active` and `outOfService`.
-/

variable {s s' : Firm}

/-! ## Reading the firm -/

/-- The status of a lift. -/
def status (s : Firm) (elevator : Nat) : Option ElevatorStatus :=
  (s.elevators.get? elevator).map Elevator.status

theorem isSome_status (s : Firm) (elevator : Nat) :
    (s.status elevator).isSome = (s.elevators.get? elevator).isSome := Option.isSome_map

theorem contract_ok {id : Nat} {contract : Contract} :
    s.contract id = .ok contract ↔ s.contracts.get? id = some contract := by
  unfold Firm.contract
  cases s.contracts.get? id with
  | none => simp only [reduceCtorEq]
  | some row => simp only [Except.ok.injEq, Option.some.injEq]

theorem fault_ok {id : Nat} {fault : Fault} :
    s.fault id = .ok fault ↔ s.faults.get? id = some fault := by
  unfold Firm.fault
  cases s.faults.get? id with
  | none => simp only [reduceCtorEq]
  | some row => simp only [Except.ok.injEq, Option.some.injEq]

theorem isHeld_iff {elevator : Nat} : s.isHeld elevator = true ↔
    ∃ r ∈ s.lines, r.2.elevator = elevator ∧ r.2.isOpen = true := by
  unfold isHeld
  simp only [List.any_eq_true, Bool.and_eq_true, decide_eq_true_eq]

theorem openLine_iff {id : Nat} {r : Nat × ContractElevator} :
    openLine id r = true ↔ r.2.contract = id ∧ r.2.isOpen = true := by
  unfold openLine
  rw [Bool.and_eq_true, decide_eq_true_eq]

theorem mem_openLines {id : Nat} {r : Nat × ContractElevator} :
    r ∈ s.openLines id ↔ r ∈ s.lines ∧ r.2.contract = id ∧ r.2.isOpen = true := by
  unfold openLines
  rw [List.mem_filter, openLine_iff]

/-! ## What the services do -/

theorem terminate_ok {id : Nat} {day : Date} {reason : String}
    (done : s.terminate id day reason = .ok s') :
    ∃ contract, s.contracts.get? id = some contract ∧ contract.status.isClosed = false ∧
      s' = (s.release id day).setContract id (fun contract =>
        { contract with status := .terminated, terminatedAt := some day
                        terminationReason := reason, autoRenew := false }) := by
  unfold terminate at done
  rcases bind_ok.mp done with ⟨contract, found, rest⟩
  refine ⟨contract, contract_ok.mp found, ?_⟩
  split at rest
  · cases rest
  · split at rest
    · cases rest
    · rename_i unclosed
      exact ⟨Bool.eq_false_iff.mpr unclosed, (Except.ok.inj rest).symm⟩

/-- The firm after the successor's row is written. -/
def withSuccessor (s : Firm) (contract : Contract) (id : Nat) (startDate endDate : Date)
    (copyTerms : Bool) : Firm :=
  { s with
    contracts := s.contracts.insert s.nextId (contract.successor id startDate endDate copyTerms)
    nextId := s.nextId + 1 }

/-- The lines of a contract moved to another. -/
def carry (s : Firm) (id successor : Nat) (startDate : Date) (copyTerms : Bool) : Firm :=
  { s.closeLines id startDate with
    lines := (s.closeLines id startDate).lines ++
      carried successor startDate copyTerms s.nextId (s.openLines id)
    nextId := s.nextId + (s.openLines id).length }

/-- What becomes of a renewed contract's lines. -/
def handOver (s : Firm) (id successor : Nat) (startDate : Date) (carryElevators copyTerms : Bool) :
    Firm :=
  if carryElevators then s.carry id successor startDate copyTerms else s.release id startDate

theorem renew_ok {id successor : Nat} {startDate endDate : Date} {carryElevators copyTerms : Bool}
    (done : s.renew id startDate endDate carryElevators copyTerms = .ok (s', successor)) :
    ∃ contract, s.contracts.get? id = some contract ∧ contract.status.isClosed = false ∧
      successor = s.nextId ∧
      s' = ((s.withSuccessor contract id startDate endDate copyTerms).handOver id s.nextId startDate
        carryElevators copyTerms).setContract id (fun contract => { contract with status := .renewed }) := by
  unfold renew at done
  rcases bind_ok.mp done with ⟨contract, found, rest⟩
  refine ⟨contract, contract_ok.mp found, ?_⟩
  split at rest
  · cases rest
  · split at rest
    · cases rest
    · rename_i unclosed _
      have ends := Prod.mk.inj (Except.ok.inj rest)
      exact ⟨Bool.eq_false_iff.mpr unclosed, ends.2.symm, ends.1.symm⟩

theorem expire_ok {id : Nat} {today : Date} (done : s.expire id today = .ok s') :
    s' = s ∨ ∃ contract, s.contracts.get? id = some contract ∧ contract.status = .active ∧
      (s' = (s.release id contract.endDate.next).setContract id
          (fun contract => { contract with status := .expired }) ∨
        ∃ renewed startDate endDate,
          s.renew id startDate endDate true true = .ok (renewed, s.nextId) ∧
          (s' = renewed ∨
            s' = renewed.setContract s.nextId (fun contract => { contract with status := .active }))) := by
  unfold expire at done
  rcases bind_ok.mp done with ⟨contract, found, rest⟩
  split at rest
  · exact Or.inl (Except.ok.inj rest).symm
  · rename_i due
    rw [not_or, not_not] at due
    refine Or.inr ⟨contract, contract_ok.mp found, due.1, ?_⟩
    split at rest
    · rcases bind_ok.mp rest with ⟨⟨renewed, successor⟩, first, second⟩
      rcases renew_ok first with ⟨_, _, _, rfl, _⟩
      refine Or.inr ⟨renewed, _, _, first, ?_⟩
      dsimp only at second
      split at second
      · exact Or.inl (Except.ok.inj second).symm
      · exact Or.inr (Except.ok.inj second).symm
    · exact Or.inl (Except.ok.inj rest).symm

theorem addElevator_ok {id elevator : Nat} {unitPrice : Option Cents} {today : Date}
    (done : s.addElevator id unitPrice today elevator = .ok s') :
    ∃ lift, s.elevators.get? elevator = some lift ∧ s.isHeld elevator = false ∧
      s' = (let added := { s with
              lines := s.lines.insert s.nextId ⟨id, elevator, unitPrice, today, none⟩
              nextId := s.nextId + 1 }
            if lift.status = .uncontracted then added.setStatus elevator .active else added) := by
  unfold addElevator at done
  cases found : s.elevators.get? elevator with
  | none =>
      rw [found] at done
      cases done
  | some lift =>
      rw [found] at done
      dsimp only at done
      split at done
      · cases done
      · rename_i free
        exact ⟨lift, rfl, Bool.eq_false_iff.mpr free, (Except.ok.inj done).symm⟩

theorem removeElevator_ok {id elevator : Nat} {today : Date}
    (done : s.removeElevator id elevator today = .ok s') :
    ∃ line ∈ s.lines, line.2.contract = id ∧ line.2.isOpen = true ∧ line.2.elevator = elevator ∧
      s' = { s with
        lines := s.lines.update line.1 (fun l => { l with removedAt := some today }) }.setStatus
          elevator .uncontracted := by
  unfold removeElevator at done
  split at done
  · cases done
  · rename_i line found
    have passes := List.find?_some found
    rw [Bool.and_eq_true, openLine_iff, decide_eq_true_eq] at passes
    exact ⟨line, List.mem_of_find?_eq_some found, passes.1.1, passes.1.2, passes.2,
      (Except.ok.inj done).symm⟩

theorem createContract_ok {new : NewContract} (done : s.createContract new = .ok s') :
    s' = { s with contracts := s.contracts.insert s.nextId new.row, nextId := s.nextId + 1 } := by
  unfold createContract at done
  rcases bind_ok.mp done with ⟨_, _, rest⟩
  exact (Except.ok.inj rest).symm

theorem editContract_ok {id : Nat} {changes : ContractChanges} :
    s.editContract id changes = .ok s' ↔ ∃ contract, s.contracts.get? id = some contract ∧
      checkContract changes.status (changes.apply contract) = .ok () ∧
      s' = s.setContract id changes.apply := by
  unfold editContract
  rw [bind_ok]
  constructor
  · rintro ⟨contract, found, rest⟩
    rcases bind_ok.mp rest with ⟨⟨⟩, checked, last⟩
    exact ⟨contract, contract_ok.mp found, checked, (Except.ok.inj last).symm⟩
  · rintro ⟨contract, found, checked, rfl⟩
    exact ⟨contract, contract_ok.mpr found, bind_ok.mpr ⟨(), checked, rfl⟩⟩

/-! ## Statuses -/

theorem status_setStatus (s : Firm) (elevator elevator' : Nat) (status : ElevatorStatus) :
    (s.setStatus elevator status).status elevator' =
      if elevator' = elevator then (s.status elevator').map (fun _ => status)
      else s.status elevator' := by
  unfold Firm.status setStatus
  dsimp only
  rw [Rows.get?_update]
  split
  · rw [Option.map_map, Option.map_map]
    rfl
  · rfl

theorem status_uncontract (s : Firm) (elevators : List Nat) (elevator : Nat) :
    (s.uncontract elevators).status elevator =
      if elevator ∈ elevators then (s.status elevator).map (fun _ => .uncontracted)
      else s.status elevator := by
  unfold Firm.status uncontract
  dsimp only
  rw [Rows.get?_map]
  · split
    · rw [Option.map_map, Option.map_map]
      rfl
    · rw [Option.map_map]
      rfl
  · intro r
    split
    · rfl
    · rfl

/-- The lifts of a contract fall back to `uncontracted`, and no other does. -/
theorem status_release (s : Firm) (id : Nat) (day : Date) (elevator : Nat) :
    (s.release id day).status elevator =
      if elevator ∈ (s.openLines id).map (·.2.elevator) then
        (s.status elevator).map (fun _ => .uncontracted)
      else s.status elevator := status_uncontract _ _ _

/-! ## The services of faults and inspections -/

/-- A lift is stopped, restored or left as it is. -/
def Toggles (before after : ElevatorStatus) : Prop :=
  after = before ∨ before = .active ∧ after = .outOfService ∨
    before = .outOfService ∧ after = .active

/-- What those services leave alone. -/
structure Served (s s' : Firm) : Prop where
  contracts : s'.contracts = s.contracts
  lines : s'.lines = s.lines
  nextId : s.nextId ≤ s'.nextId
  status : ∀ elevator, s'.status elevator = s.status elevator ∨
    ∃ before after, s.status elevator = some before ∧ s'.status elevator = some after ∧
      Toggles before after
  inspections : s.inspections.Distinct -> s.inspections.Below s.nextId ->
    s'.inspections.Distinct ∧ s'.inspections.Below s'.nextId
  inspected : ∀ r ∈ s'.inspections, (s.elevators.get? r.2.elevator).isSome = true ∨
    ∃ r' ∈ s.inspections, r'.2.elevator = r.2.elevator

namespace Served

theorem refl (s : Firm) : Served s s where
  contracts := rfl
  lines := rfl
  nextId := Nat.le_refl _
  status _ := Or.inl rfl
  inspections distinct below := ⟨distinct, below⟩
  inspected r mem := Or.inr ⟨r, mem, rfl⟩

/-- One lift is written. -/
theorem lift {elevator : Nat} {f : Elevator -> Elevator}
    (toggles : ∀ lift, Toggles lift.status (f lift).status) (served : Served s s') :
    s'.elevators = s.elevators -> Served s { s' with elevators := s'.elevators.update elevator f } := by
  intro unwritten
  refine ⟨served.contracts, served.lines, served.nextId, ?_, served.inspections,
    served.inspected⟩
  intro elevator'
  unfold Firm.status
  dsimp only
  rw [unwritten, Rows.get?_update]
  split
  · cases found : s.elevators.get? elevator' with
    | none => exact Or.inl rfl
    | some lift => exact Or.inr ⟨_, _, rfl, rfl, toggles lift⟩
  · exact Or.inl rfl

theorem isSome_status (served : Served s s') (elevator : Nat) :
    (s'.status elevator).isSome = (s.status elevator).isSome := by
  rcases served.status elevator with same | ⟨before, after, was, now, _⟩
  · rw [same]
  · rw [was, now]
    rfl

end Served

theorem toggles_sync (lift : Elevator) (latest : Inspection) :
    Toggles lift.status (lift.sync latest).status := by
  unfold Elevator.sync Toggles
  dsimp only
  split
  · rename_i stops
    exact Or.inr (Or.inl ⟨stops.2, rfl⟩)
  · split
    · rename_i restores
      exact Or.inr (Or.inr ⟨restores.2.2, rfl⟩)
    · exact Or.inl rfl

theorem served_syncElevator (served : Served s s') (unwritten : s'.elevators = s.elevators)
    (elevator : Nat) : Served s (s'.syncElevator elevator) := by
  unfold syncElevator
  split
  · exact served
  · exact served.lift (fun lift => toggles_sync lift _) unwritten

theorem served_recordInspection {new : NewInspection} {now : Nat}
    (done : s.recordInspection new now = .ok s') : Served s s' := by
  unfold recordInspection at done
  split at done
  · cases done
  · rename_i known
    rw [← Except.ok.inj done]
    apply served_syncElevator
    · refine ⟨rfl, rfl, Nat.le_succ _, fun _ => Or.inl rfl, ?_, ?_⟩
      · intro distinct below
        exact ⟨distinct.insert (below.absent (Nat.le_refl _)), below.insert _⟩
      intro r mem
      rcases List.mem_append.mp mem with old | fresh
      · exact Or.inr ⟨r, old, rfl⟩
      · rw [List.mem_singleton.mp fresh]
        rw [Option.isNone_iff_eq_none] at known
        exact Or.inl (Option.isSome_iff_ne_none.mpr known)
    · rfl

theorem served_editInspection {id : Nat} {changes : InspectionChanges}
    (done : s.editInspection id changes = .ok s') : Served s s' := by
  unfold editInspection at done
  split at done
  · cases done
  · rw [← Except.ok.inj done]
    apply served_syncElevator
    · refine ⟨rfl, rfl, Nat.le_refl _, fun _ => Or.inl rfl, ?_, ?_⟩
      · intro distinct below
        exact ⟨distinct.update id _, below.of_isSome (fun _ => Rows.isSome_get?_update _ _ _ _)⟩
      intro r mem
      rcases Rows.mem_update.mp mem with ⟨old, _⟩ | ⟨row, old, rfl⟩
      · exact Or.inr ⟨r, old, rfl⟩
      · exact Or.inr ⟨_, old, rfl⟩
    · rfl

theorem served_setFault (s : Firm) (id : Nat) (f : Fault -> Fault) : Served s (s.setFault id f) :=
  { Served.refl s with }

theorem toggles_stop (lift : Elevator) : Toggles lift.status
    (if lift.status = .active then { lift with status := ElevatorStatus.outOfService } else lift).status := by
  split
  · rename_i running
    exact Or.inr (Or.inl ⟨running, rfl⟩)
  · exact Or.inl rfl

theorem served_stop (served : Served s s') (unwritten : s'.elevators = s.elevators) (elevator : Nat) :
    Served s (s'.stop elevator) := served.lift toggles_stop unwritten

theorem served_insertFault (s : Firm) (fault : Fault) : Served s (s.insertFault fault) := by
  have inserted : Served s { s with faults := s.faults.insert s.nextId fault, nextId := s.nextId + 1 } :=
    { Served.refl s with
      nextId := Nat.le_succ _
      inspections := fun distinct below => ⟨distinct, below.mono (Nat.le_succ _)⟩ }
  unfold insertFault
  dsimp only
  split
  · exact served_stop inserted rfl _
  · exact inserted

theorem served_merge (s : Firm) (r : Nat × Fault) (report : PublicReport) :
    Served s (s.merge r report) := by
  unfold merge
  dsimp only
  split
  · exact served_stop (served_setFault s r.1 _) rfl _
  · exact served_setFault s r.1 _

theorem resolve_ok {id : Nat} {partsUsed : String} {restoreService : Bool}
    (done : s.resolve id partsUsed restoreService = .ok s') :
    ∃ fault f, s.faults.get? id = some fault ∧ fault.status = .onSite ∧
      s' = { s.setFault id f with elevators := s.elevators.update fault.elevator (fun lift =>
        if restoreService && decide (lift.status = .outOfService) then { lift with status := .active }
        else lift) } := by
  unfold resolve at done
  rcases bind_ok.mp done with ⟨fault, found, rest⟩
  split at rest
  · cases rest
  · rename_i arrived
    exact ⟨fault, _, fault_ok.mp found, not_not.mp arrived, (Except.ok.inj rest).symm⟩

theorem served_resolve {id : Nat} {partsUsed : String} {restoreService : Bool}
    (done : s.resolve id partsUsed restoreService = .ok s') : Served s s' := by
  rcases resolve_ok done with ⟨fault, f, _, _, rfl⟩
  refine (served_setFault s id f).lift ?_ rfl
  intro lift
  split
  · rename_i restored
    rw [Bool.and_eq_true, decide_eq_true_eq] at restored
    exact Or.inr (Or.inr ⟨restored.2, rfl⟩)
  · exact Or.inl rfl

end Firm

/-- A request to the services of faults and inspections. -/
def Event.isService : Event -> Bool
  | .recordInspection _ _ => true
  | .editInspection _ _ => true
  | .reportByStaff _ _ _ _ _ _ => true
  | .reportPublic _ _ _ => true
  | .reportByPortal _ _ _ => true
  | .assign _ _ => true
  | .arrive _ => true
  | .resolve _ _ _ => true
  | .close _ _ => true
  | .cancel _ => true
  | .editFault _ _ _ => true
  | _ => false

namespace Firm

variable {s s' : Firm}

/-- A fault's own step writes the fault. -/
theorem transition_ok {id : Nat} {refused : Fault -> Prop} [DecidablePred refused] {f : Fault -> Fault}
    (done : (do
      let fault ← s.fault id
      if refused fault then .error .faultTransitionNotAllowed else .ok (s.setFault id f)) = .ok s') :
    s' = s.setFault id f := by
  rcases bind_ok.mp done with ⟨fault, _, rest⟩
  split at rest
  · cases rest
  · exact (Except.ok.inj rest).symm

theorem attempt_served {event : Event} (service : event.isService = true)
    (done : s.attempt event = .ok s') : Served s s' := by
  cases event with
  | recordInspection new now => exact served_recordInspection done
  | editInspection id changes => exact served_editInspection done
  | reportByStaff elevator priority technician stoppedElevator someoneTrapped now =>
      unfold attempt reportByStaff at done
      dsimp only at done
      split at done
      · cases done
      · cases done
        exact served_insertFault s _
  | reportPublic elevator report now =>
      unfold attempt reportPublic at done
      dsimp only at done
      split at done
      · cases done
      · split at done
        · cases done
          exact served_merge s _ report
        · cases done
          exact served_insertFault s _
  | reportByPortal elevator report now =>
      unfold attempt reportByPortal at done
      dsimp only at done
      split at done
      · cases done
      · cases done
        exact served_insertFault s _
  | assign fault technician =>
      rw [transition_ok done]
      exact served_setFault s fault _
  | arrive fault =>
      rw [transition_ok done]
      exact served_setFault s fault _
  | resolve fault partsUsed restoreService => exact served_resolve done
  | close fault now =>
      rw [transition_ok done]
      exact served_setFault s fault _
  | cancel fault =>
      rw [transition_ok done]
      exact served_setFault s fault _
  | editFault fault priority billable =>
      rcases bind_ok.mp done with ⟨_, _, rest⟩
      cases rest
      exact served_setFault s fault _
  | _ => cases service

end Firm
end Fleet
end Shiftlush
