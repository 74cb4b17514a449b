import Shiftlush.Fleet.Moves

namespace Shiftlush
namespace Fleet
namespace Firm

open Calendar (Date)

/-!
# Keys and references

What the tables' keys and the unique index on open lines give in every firm,
whatever is asked of it.
-/

structure Keyed (s : Firm) : Prop where
  contracts : s.contracts.Below s.nextId
  elevators : s.elevators.Below s.nextId
  lines : s.lines.Below s.nextId
  inspections : s.inspections.Below s.nextId
  distinct : s.lines.Distinct
  examined : s.inspections.Distinct
  covered : ∀ r ∈ s.lines, (s.contracts.get? r.2.contract).isSome = true
  known : ∀ r ∈ s.lines, (s.elevators.get? r.2.elevator).isSome = true
  inspected : ∀ r ∈ s.inspections, (s.elevators.get? r.2.elevator).isSome = true
  /-- One open line for each lift. -/
  once : ∀ r ∈ s.lines, ∀ r' ∈ s.lines, r.2.isOpen = true -> r'.2.isOpen = true ->
    r.2.elevator = r'.2.elevator -> r = r'

/-- A firm of contracts alone. -/
theorem keyed_contracts {contracts : Rows Contract} {nextId : Nat} (below : contracts.Below nextId) :
    (⟨contracts, [], [], [], [], nextId⟩ : Firm).Keyed where
  contracts := below
  elevators := by
    intro id here
    cases here
  lines := by
    intro id here
    cases here
  inspections := by
    intro id here
    cases here
  distinct := List.nodup_nil
  examined := List.nodup_nil
  covered := by
    intro r mem
    cases mem
  known := by
    intro r mem
    cases mem
  inspected := by
    intro r mem
    cases mem
  once := by
    intro r mem
    cases mem

theorem keyed_empty : empty.Keyed := by
  apply keyed_contracts
  intro id here
  cases here

variable {s s' : Firm}

/-! ## Lines are closed -/

/-- Rows keep their keys, contracts and lifts, and none is opened. -/
def Shuts (g : Nat × ContractElevator -> Nat × ContractElevator) : Prop :=
  ∀ r, (g r).1 = r.1 ∧ (g r).2.contract = r.2.contract ∧ (g r).2.elevator = r.2.elevator ∧
    ((g r).2.isOpen = true -> g r = r)

theorem shuts_closing (closes : Nat × ContractElevator -> Prop) [DecidablePred closes] (day : Date) :
    Shuts (fun r => if closes r then (r.1, { r.2 with removedAt := some day }) else r) := by
  intro r
  dsimp only
  split
  · refine ⟨rfl, rfl, rfl, ?_⟩
    intro impossible
    cases impossible
  · exact ⟨rfl, rfl, rfl, fun _ => rfl⟩

namespace Keyed

theorem shut (keyed : s.Keyed) {g : Nat × ContractElevator -> Nat × ContractElevator} (shuts : Shuts g) :
    { s with lines := s.lines.map g }.Keyed := by
  have keys : (s.lines.map g).map Prod.fst = s.lines.map Prod.fst := by
    rw [List.map_map]
    exact List.map_congr_left (fun r _ => (shuts r).1)
  refine ⟨keyed.contracts, keyed.elevators, ?_, keyed.inspections, ?_, keyed.examined, ?_, ?_,
    keyed.inspected, ?_⟩
  · apply keyed.lines.of_isSome
    intro id
    rw [Rows.get?_map (fun r => (shuts r).1), Option.isSome_map]
  · unfold Rows.Distinct
    rw [keys]
    exact keyed.distinct
  · intro r mem
    rcases List.mem_map.mp mem with ⟨r', old, rfl⟩
    rw [(shuts r').2.1]
    exact keyed.covered r' old
  · intro r mem
    rcases List.mem_map.mp mem with ⟨r', old, rfl⟩
    rw [(shuts r').2.2.1]
    exact keyed.known r' old
  · intro r mem r' mem' isOpen isOpen' same
    rcases List.mem_map.mp mem with ⟨a, old, rfl⟩
    rcases List.mem_map.mp mem' with ⟨b, old', rfl⟩
    have stays := (shuts a).2.2.2 isOpen
    have stays' := (shuts b).2.2.2 isOpen'
    rw [stays] at isOpen same ⊢
    rw [stays'] at isOpen' same ⊢
    exact keyed.once a old b old' isOpen isOpen' same

theorem closeLines (keyed : s.Keyed) (id : Nat) (day : Date) : (s.closeLines id day).Keyed :=
  keyed.shut (shuts_closing (fun r => openLine id r = true) day)

/-- The lifts' own columns say nothing of keys. -/
theorem rewrite (keyed : s.Keyed) {elevators : Rows Elevator}
    (same : ∀ id, (elevators.get? id).isSome = (s.elevators.get? id).isSome) :
    { s with elevators := elevators }.Keyed where
  contracts := keyed.contracts
  elevators := keyed.elevators.of_isSome same
  lines := keyed.lines
  inspections := keyed.inspections
  distinct := keyed.distinct
  examined := keyed.examined
  covered := keyed.covered
  known := by
    intro r mem
    rw [same]
    exact keyed.known r mem
  inspected := by
    intro r mem
    rw [same]
    exact keyed.inspected r mem
  once := keyed.once

theorem setStatus (keyed : s.Keyed) (elevator : Nat) (status : ElevatorStatus) :
    (s.setStatus elevator status).Keyed := by
  apply keyed.rewrite
  intro id
  exact Rows.isSome_get?_update _ _ _ _

theorem uncontract (keyed : s.Keyed) (elevators : List Nat) : (s.uncontract elevators).Keyed := by
  apply keyed.rewrite
  intro id
  rw [Rows.get?_map, Option.isSome_map]
  intro r
  split
  · rfl
  · rfl

theorem release (keyed : s.Keyed) (id : Nat) (day : Date) : (s.release id day).Keyed :=
  (keyed.closeLines id day).uncontract _

theorem setContract (keyed : s.Keyed) (id : Nat) (f : Contract -> Contract) :
    (s.setContract id f).Keyed where
  contracts := keyed.contracts.of_isSome (fun _ => Rows.isSome_get?_update _ _ _ _)
  elevators := keyed.elevators
  lines := keyed.lines
  inspections := keyed.inspections
  distinct := keyed.distinct
  examined := keyed.examined
  covered := by
    intro r mem
    unfold Firm.setContract
    rw [Rows.isSome_get?_update]
    exact keyed.covered r mem
  known := keyed.known
  inspected := keyed.inspected
  once := keyed.once

theorem insertContract (keyed : s.Keyed) (contract : Contract) :
    { s with contracts := s.contracts.insert s.nextId contract, nextId := s.nextId + 1 }.Keyed where
  contracts := keyed.contracts.insert contract
  elevators := keyed.elevators.mono (Nat.le_succ _)
  lines := keyed.lines.mono (Nat.le_succ _)
  inspections := keyed.inspections.mono (Nat.le_succ _)
  distinct := keyed.distinct
  examined := keyed.examined
  covered := by
    intro r mem
    rcases Option.isSome_iff_exists.mp (keyed.covered r mem) with ⟨row, found⟩
    dsimp only
    rw [Rows.get?_insert_of_some found, Option.isSome_some]
  known := keyed.known
  inspected := keyed.inspected
  once := keyed.once

theorem insertElevator (keyed : s.Keyed) (lift : Elevator) :
    { s with elevators := s.elevators.insert s.nextId lift, nextId := s.nextId + 1 }.Keyed where
  contracts := keyed.contracts.mono (Nat.le_succ _)
  elevators := keyed.elevators.insert lift
  lines := keyed.lines.mono (Nat.le_succ _)
  inspections := keyed.inspections.mono (Nat.le_succ _)
  distinct := keyed.distinct
  examined := keyed.examined
  covered := keyed.covered
  known := by
    intro r mem
    rcases Option.isSome_iff_exists.mp (keyed.known r mem) with ⟨row, found⟩
    dsimp only
    rw [Rows.get?_insert_of_some found, Option.isSome_some]
  inspected := by
    intro r mem
    rcases Option.isSome_iff_exists.mp (keyed.inspected r mem) with ⟨row, found⟩
    dsimp only
    rw [Rows.get?_insert_of_some found, Option.isSome_some]
  once := keyed.once

theorem served (keyed : s.Keyed) (served : Served s s') : s'.Keyed := by
  have same : ∀ id, (s'.elevators.get? id).isSome = (s.elevators.get? id).isSome := by
    intro id
    rw [← isSome_status, ← isSome_status]
    exact served.isSome_status id
  have records := served.inspections keyed.examined keyed.inspections
  refine ⟨?_, ?_, ?_, records.2, ?_, records.1, ?_, ?_, ?_, ?_⟩
  · rw [served.contracts]
    exact keyed.contracts.mono served.nextId
  · exact (keyed.elevators.of_isSome same).mono served.nextId
  · rw [served.lines]
    exact keyed.lines.mono served.nextId
  · rw [served.lines]
    exact keyed.distinct
  · rw [served.lines, served.contracts]
    exact keyed.covered
  · intro r mem
    rw [served.lines] at mem
    rw [same]
    exact keyed.known r mem
  · intro r mem
    rw [same]
    rcases served.inspected r mem with here | ⟨r', old, lift⟩
    · exact here
    · rw [← lift]
      exact keyed.inspected r' old
  · rw [served.lines]
    exact keyed.once

/-! ## Lines are opened -/

theorem insertLine (keyed : s.Keyed) (line : ContractElevator)
    (covered : (s.contracts.get? line.contract).isSome = true)
    (known : (s.elevators.get? line.elevator).isSome = true) (free : s.isHeld line.elevator = false) :
    { s with lines := s.lines.insert s.nextId line, nextId := s.nextId + 1 }.Keyed := by
  have unheld : ∀ r ∈ s.lines, r.2.isOpen = true -> r.2.elevator ≠ line.elevator := by
    intro r mem isOpen same
    have held : s.isHeld line.elevator = true := isHeld_iff.mpr ⟨r, mem, same, isOpen⟩
    rw [free] at held
    cases held
  refine ⟨keyed.contracts.mono (Nat.le_succ _), keyed.elevators.mono (Nat.le_succ _),
    keyed.lines.insert line, keyed.inspections.mono (Nat.le_succ _),
    keyed.distinct.insert (keyed.lines.absent (Nat.le_refl _)), keyed.examined, ?_, ?_,
    keyed.inspected, ?_⟩
  · intro r mem
    rcases List.mem_append.mp mem with old | fresh
    · exact keyed.covered r old
    · rw [List.mem_singleton.mp fresh]
      exact covered
  · intro r mem
    rcases List.mem_append.mp mem with old | fresh
    · exact keyed.known r old
    · rw [List.mem_singleton.mp fresh]
      exact known
  · intro r mem r' mem' isOpen isOpen' same
    rcases List.mem_append.mp mem with old | fresh <;>
      rcases List.mem_append.mp mem' with old' | fresh'
    · exact keyed.once r old r' old' isOpen isOpen' same
    · rw [List.mem_singleton.mp fresh'] at same
      exact absurd same (unheld r old isOpen)
    · rw [List.mem_singleton.mp fresh] at same
      exact absurd same.symm (unheld r' old' isOpen')
    · rw [List.mem_singleton.mp fresh, List.mem_singleton.mp fresh']

theorem addElevator (keyed : s.Keyed) {id elevator : Nat} {unitPrice : Option Cents} {today : Date}
    (covered : (s.contracts.get? id).isSome = true)
    (done : s.addElevator id unitPrice today elevator = .ok s') : s'.Keyed := by
  rcases addElevator_ok done with ⟨lift, found, free, rfl⟩
  have known : (s.elevators.get? elevator).isSome = true := by rw [found, Option.isSome_some]
  have inserted := keyed.insertLine ⟨id, elevator, unitPrice, today, none⟩ covered known free
  dsimp only
  split
  · exact inserted.setStatus elevator .active
  · exact inserted

end Keyed

/-- What every turn of the loop keeps, `add_elevators` keeps. -/
theorem addElevators_rule {P : Firm -> Prop} {id : Nat} {unitPrice : Option Cents} {today : Date}
    (turn : ∀ s s' elevator, P s -> s.addElevator id unitPrice today elevator = .ok s' -> P s')
    {elevators : List Nat} (now : P s) (done : addElevators id unitPrice today elevators s = .ok s') :
    P s' := by
  induction elevators generalizing s with
  | nil =>
      cases done
      exact now
  | cons elevator elevators ih =>
      rcases bind_ok.mp done with ⟨next, first, rest⟩
      exact ih (turn s next elevator now first) rest

/-! ## Lines are carried over -/

section Carried

variable {successor : Nat} {startDate : Date} {copyTerms : Bool} {firstId : Nat}
  {lines : Rows ContractElevator}

theorem mem_carried {r : Nat × ContractElevator} : r ∈ carried successor startDate copyTerms firstId lines ↔
    ∃ k, ∃ within : k < lines.length, r = (firstId + k, ⟨successor, (lines.get ⟨k, within⟩).2.elevator,
      if copyTerms then (lines.get ⟨k, within⟩).2.unitPrice else none, startDate, none⟩) := by
  unfold carried
  rw [List.mem_mapIdx]
  constructor
  · rintro ⟨k, within, rfl⟩
    exact ⟨k, within, rfl⟩
  · rintro ⟨k, within, rfl⟩
    exact ⟨k, within, rfl⟩

/-- A carried line holds the lift of a line it was made from. -/
theorem carried_from {r : Nat × ContractElevator}
    (mem : r ∈ carried successor startDate copyTerms firstId lines) :
    r.2.contract = successor ∧ r.2.isOpen = true ∧ r.2.addedAt = startDate ∧
      firstId ≤ r.1 ∧ r.1 < firstId + lines.length ∧ ∃ r' ∈ lines, r'.2.elevator = r.2.elevator := by
  rcases mem_carried.mp mem with ⟨k, within, rfl⟩
  exact ⟨rfl, rfl, rfl, Nat.le_add_right _ _, Nat.add_lt_add_left within _, _, List.get_mem _ _, rfl⟩

theorem carried_of (successor : Nat) (startDate : Date) (copyTerms : Bool) (firstId : Nat)
    {r : Nat × ContractElevator} (mem : r ∈ lines) :
    ∃ r' ∈ carried successor startDate copyTerms firstId lines, r'.2.elevator = r.2.elevator := by
  rcases List.get_of_mem mem with ⟨⟨k, within⟩, rfl⟩
  exact ⟨_, mem_carried.mpr ⟨k, within, rfl⟩, rfl⟩

theorem distinct_carried : (carried successor startDate copyTerms firstId lines).Distinct := by
  unfold Rows.Distinct carried
  rw [List.nodup_iff_injective_get]
  intro i j same
  simp only [List.get_eq_getElem, List.getElem_map, List.getElem_mapIdx] at same
  apply Fin.ext
  omega

/-- Lines of different lifts make lines of different lifts. -/
theorem carried_once (distinct : lines.Distinct)
    (once : ∀ r ∈ lines, ∀ r' ∈ lines, r.2.elevator = r'.2.elevator -> r = r')
    {r r' : Nat × ContractElevator} (mem : r ∈ carried successor startDate copyTerms firstId lines)
    (mem' : r' ∈ carried successor startDate copyTerms firstId lines)
    (same : r.2.elevator = r'.2.elevator) : r = r' := by
  rcases mem_carried.mp mem with ⟨k, within, rfl⟩
  rcases mem_carried.mp mem' with ⟨k', within', rfl⟩
  have one := once _ (List.get_mem lines ⟨k, within⟩) _ (List.get_mem lines ⟨k', within'⟩) same
  have index := List.nodup_iff_injective_get.mp (List.Nodup.of_map _ distinct) one
  cases index
  rfl

end Carried

/-- Open lines, once a contract's own are closed. -/
theorem mem_closeLines_open {id : Nat} {day : Date} {r : Nat × ContractElevator}
    (isOpen : r.2.isOpen = true) :
    r ∈ (s.closeLines id day).lines ↔ r ∈ s.lines ∧ r.2.contract ≠ id := by
  unfold closeLines
  dsimp only
  rw [List.mem_map]
  constructor
  · rintro ⟨r', old, rfl⟩
    split at isOpen
    · cases isOpen
    · rename_i other
      rw [if_neg other]
      rw [openLine_iff] at other
      exact ⟨old, fun same => other ⟨same, isOpen⟩⟩
  · rintro ⟨old, other⟩
    refine ⟨r, old, if_neg ?_⟩
    rw [openLine_iff]
    exact fun both => other both.1

namespace Keyed

theorem carry (keyed : s.Keyed) {id successor : Nat} {startDate : Date} {copyTerms : Bool}
    (covered : (s.contracts.get? successor).isSome = true) :
    (s.carry id successor startDate copyTerms).Keyed := by
  have closed := keyed.closeLines id startDate
  have unfolded : ∀ r ∈ (s.carry id successor startDate copyTerms).lines,
      r ∈ (s.closeLines id startDate).lines ∨
        r ∈ carried successor startDate copyTerms s.nextId (s.openLines id) := fun r mem =>
    List.mem_append.mp mem
  -- a lift that is carried over is held by no line that stays open
  have apart : ∀ r ∈ (s.closeLines id startDate).lines, r.2.isOpen = true ->
      ∀ r' ∈ carried successor startDate copyTerms s.nextId (s.openLines id),
        r.2.elevator ≠ r'.2.elevator := by
    intro r mem isOpen r' mem' same
    rcases (mem_closeLines_open isOpen).mp mem with ⟨old, other⟩
    rcases (carried_from mem').2.2.2.2.2 with ⟨from_line, was, lift⟩
    rcases mem_openLines.mp was with ⟨listed, here, wasOpen⟩
    have one := keyed.once r old from_line listed isOpen wasOpen (same.trans lift.symm)
    rw [one] at other
    exact other here
  refine ⟨keyed.contracts.mono (Nat.le_add_right _ _), keyed.elevators.mono (Nat.le_add_right _ _),
    ?_, keyed.inspections.mono (Nat.le_add_right _ _), ?_, keyed.examined, ?_, ?_, keyed.inspected, ?_⟩
  · apply closed.lines.append (Nat.le_add_right _ _)
    intro r mem
    exact (carried_from mem).2.2.2.2.1
  · apply closed.distinct.append distinct_carried
    intro r mem
    exact closed.lines.absent (carried_from mem).2.2.2.1
  · intro r mem
    rcases unfolded r mem with old | new
    · exact closed.covered r old
    · rw [(carried_from new).1]
      exact covered
  · intro r mem
    rcases unfolded r mem with old | new
    · exact closed.known r old
    · rcases (carried_from new).2.2.2.2.2 with ⟨r', was, lift⟩
      rw [← lift]
      exact keyed.known r' (mem_openLines.mp was).1
  · intro r mem r' mem' isOpen isOpen' same
    rcases unfolded r mem with old | new <;> rcases unfolded r' mem' with old' | new'
    · exact closed.once r old r' old' isOpen isOpen' same
    · exact absurd same (apart r old isOpen r' new')
    · exact absurd same.symm (apart r' old' isOpen' r new)
    · refine carried_once (keyed.distinct.filter _) ?_ new new' same
      · intro a was b was' same
        rcases mem_openLines.mp was with ⟨listed, _, wasOpen⟩
        rcases mem_openLines.mp was' with ⟨listed', _, wasOpen'⟩
        exact keyed.once a listed b listed' wasOpen wasOpen' same

theorem handOver (keyed : s.Keyed) {id successor : Nat} {startDate : Date}
    {carryElevators copyTerms : Bool} (covered : (s.contracts.get? successor).isSome = true) :
    (s.handOver id successor startDate carryElevators copyTerms).Keyed := by
  unfold Firm.handOver
  split
  · exact keyed.carry covered
  · exact keyed.release id startDate

theorem renew (keyed : s.Keyed) {id successor : Nat} {startDate endDate : Date}
    {carryElevators copyTerms : Bool}
    (done : s.renew id startDate endDate carryElevators copyTerms = .ok (s', successor)) : s'.Keyed := by
  rcases renew_ok done with ⟨contract, _, _, _, rfl⟩
  have opened : (s.withSuccessor contract id startDate endDate copyTerms).Keyed :=
    keyed.insertContract _
  apply Keyed.setContract
  apply opened.handOver
  unfold withSuccessor
  dsimp only
  rw [Rows.get?_insert_self (keyed.contracts.absent (Nat.le_refl _)), Option.isSome_some]

theorem attempt (keyed : s.Keyed) {event : Event} (done : s.attempt event = .ok s') : s'.Keyed := by
  cases event with
  | createContract new =>
      rw [createContract_ok done]
      exact keyed.insertContract new.row
  | editContract id changes =>
      rcases editContract_ok.mp done with ⟨_, _, _, rfl⟩
      exact keyed.setContract id _
  | addElevators id elevators unitPrice today =>
      rcases bind_ok.mp done with ⟨contract, found, rest⟩
      have covered : (s.contracts.get? id).isSome = true := by
        rw [contract_ok.mp found, Option.isSome_some]
      refine (addElevators_rule (P := fun s => s.Keyed ∧ (s.contracts.get? id).isSome = true) ?_
        ⟨keyed, covered⟩ rest).1
      rintro s s' elevator ⟨keyed, covered⟩ turn
      refine ⟨keyed.addElevator covered turn, ?_⟩
      rcases addElevator_ok turn with ⟨lift, _, _, rfl⟩
      dsimp only
      split
      · exact covered
      · exact covered
  | removeElevator id elevator today =>
      rcases bind_ok.mp done with ⟨_, _, rest⟩
      rcases removeElevator_ok rest with ⟨line, _, _, _, _, rfl⟩
      apply Keyed.setStatus
      exact keyed.shut (shuts_closing (fun r => r.1 = line.1) today)
  | terminate id day reason =>
      rcases terminate_ok done with ⟨_, _, _, rfl⟩
      exact (keyed.release id day).setContract id _
  | renew id startDate endDate carryElevators copyTerms =>
      rcases bind_ok.mp done with ⟨⟨renewed, successor⟩, first, rest⟩
      cases rest
      exact keyed.renew first
  | expire id today =>
      rcases expire_ok done with rfl | ⟨contract, _, _, rfl | ⟨renewed, _, _, first, rfl | rfl⟩⟩
      · exact keyed
      · exact (keyed.release id _).setContract id _
      · exact keyed.renew first
      · exact (keyed.renew first).setContract _ _
  | createElevator status =>
      rcases bind_ok.mp done with ⟨_, _, rest⟩
      cases rest
      exact keyed.insertElevator _
  | editElevator id status =>
      unfold Firm.attempt editElevator at done
      dsimp only at done
      split at done
      · cases done
      · rcases bind_ok.mp done with ⟨_, _, rest⟩
        cases rest
        exact keyed.rewrite (fun _ => Rows.isSome_get?_update _ _ _ _)
  | _ => exact keyed.served (attempt_served (by rfl) done)

theorem step (keyed : s.Keyed) (event : Event) : (s.step event).Keyed := by
  unfold Firm.step
  cases done : s.attempt event with
  | error failure => exact keyed
  | ok next => exact keyed.attempt done

end Keyed

theorem keyed_run (events : List Event) : (Transitions.run step empty events).Keyed :=
  Transitions.run_invariant (fun _ event keyed => keyed.step event) events keyed_empty

/-! ## Contracts -/

theorem distinct_setContract (distinct : s.contracts.Distinct) (id : Nat) (f : Contract -> Contract) :
    (s.setContract id f).contracts.Distinct := distinct.update id f

theorem distinct_renew (keyed : s.Keyed) (distinct : s.contracts.Distinct) {id successor : Nat}
    {startDate endDate : Date} {carryElevators copyTerms : Bool}
    (done : s.renew id startDate endDate carryElevators copyTerms = .ok (s', successor)) :
    s'.contracts.Distinct := by
  rcases renew_ok done with ⟨contract, _, _, _, rfl⟩
  have opened : (s.withSuccessor contract id startDate endDate copyTerms).contracts.Distinct :=
    distinct.insert (keyed.contracts.absent (Nat.le_refl _))
  apply distinct_setContract
  unfold handOver
  split
  · exact opened
  · exact opened

/-- A request leaves one contract under each key. -/
theorem distinct_attempt (keyed : s.Keyed) (distinct : s.contracts.Distinct) {event : Event}
    (done : s.attempt event = .ok s') : s'.contracts.Distinct := by
  cases event with
  | createContract new =>
      rw [createContract_ok done]
      exact distinct.insert (keyed.contracts.absent (Nat.le_refl _))
  | editContract id changes =>
      rcases editContract_ok.mp done with ⟨_, _, _, rfl⟩
      exact distinct_setContract distinct id _
  | addElevators id elevators unitPrice today =>
      rcases bind_ok.mp done with ⟨_, _, rest⟩
      refine addElevators_rule (P := fun s => s.contracts.Distinct) ?_ distinct rest
      intro s s' elevator distinct turn
      rcases addElevator_ok turn with ⟨lift, _, _, rfl⟩
      dsimp only
      split
      · exact distinct
      · exact distinct
  | removeElevator id elevator today =>
      rcases bind_ok.mp done with ⟨_, _, rest⟩
      rcases removeElevator_ok rest with ⟨line, _, _, _, _, rfl⟩
      exact distinct
  | terminate id day reason =>
      rcases terminate_ok done with ⟨_, _, _, rfl⟩
      exact distinct_setContract (s := s.release id day) distinct id _
  | renew id startDate endDate carryElevators copyTerms =>
      rcases bind_ok.mp done with ⟨⟨renewed, successor⟩, first, rest⟩
      cases rest
      exact distinct_renew keyed distinct first
  | expire id today =>
      rcases expire_ok done with rfl | ⟨contract, _, _, rfl | ⟨renewed, _, _, first, rfl | rfl⟩⟩
      · exact distinct
      · exact distinct_setContract (s := s.release id contract.endDate.next) distinct id _
      · exact distinct_renew keyed distinct first
      · exact distinct_setContract (distinct_renew keyed distinct first) _ _
  | createElevator status =>
      rcases bind_ok.mp done with ⟨_, _, rest⟩
      cases rest
      exact distinct
  | editElevator id status =>
      unfold Firm.attempt editElevator at done
      dsimp only at done
      split at done
      · cases done
      · rcases bind_ok.mp done with ⟨_, _, rest⟩
        cases rest
        exact distinct
  | _ =>
      rw [(attempt_served (by rfl) done).contracts]
      exact distinct

theorem distinct_step (keyed : s.Keyed) (distinct : s.contracts.Distinct) (event : Event) :
    (s.step event).contracts.Distinct := by
  unfold Firm.step
  cases done : s.attempt event with
  | error failure => exact distinct
  | ok next => exact distinct_attempt keyed distinct done

/-! ## Faults -/

/-- Each fault has a key of its own, drawn before. -/
structure Numbered (s : Firm) : Prop where
  distinct : s.faults.Distinct
  below : ∀ id ∈ s.faults.map Prod.fst, id < s.nextId

/-- A request leaves the faults their keys, or reports one more. -/
inductive Reports (s s' : Firm) : Prop where
  | none (same : s'.faults.map Prod.fst = s.faults.map Prod.fst) (nextId : s.nextId ≤ s'.nextId)
  | one (new : s'.faults.map Prod.fst = s.faults.map Prod.fst ++ [s.nextId]) (nextId : s.nextId < s'.nextId)

theorem Reports.of_faults (same : s'.faults = s.faults) (nextId : s.nextId ≤ s'.nextId) : Reports s s' :=
  .none (congrArg (List.map Prod.fst) same) nextId

theorem reports_setFault (s : Firm) (id : Nat) (f : Fault -> Fault) : Reports s (s.setFault id f) :=
  .none (Rows.keys_update s.faults id f) (Nat.le_refl _)

theorem reports_stop (reports : Reports s s') (elevator : Nat) : Reports s (s'.stop elevator) := by
  cases reports with
  | none same nextId => exact .none same nextId
  | one new nextId => exact .one new nextId

theorem reports_insertFault (s : Firm) (fault : Fault) : Reports s (s.insertFault fault) := by
  have keys : (s.faults.insert s.nextId fault).map Prod.fst = s.faults.map Prod.fst ++ [s.nextId] := List.map_append
  unfold insertFault
  dsimp only
  split
  · exact .one keys (Nat.lt_succ_self _)
  · exact .one keys (Nat.lt_succ_self _)

theorem reports_merge (s : Firm) (r : Nat × Fault) (report : PublicReport) : Reports s (s.merge r report) := by
  unfold merge
  dsimp only
  split
  · exact reports_stop (reports_setFault s r.1 _) _
  · exact reports_setFault s r.1 _

theorem reports_syncElevator (reports : Reports s s') (elevator : Nat) : Reports s (s'.syncElevator elevator) := by
  unfold syncElevator
  split
  · exact reports
  · cases reports with
    | none same nextId => exact .none same nextId
    | one new nextId => exact .one new nextId

theorem reports_renew {id successor : Nat} {startDate endDate : Date} {carryElevators copyTerms : Bool}
    (done : s.renew id startDate endDate carryElevators copyTerms = .ok (s', successor)) :
    s'.faults = s.faults ∧ s.nextId ≤ s'.nextId := by
  rcases renew_ok done with ⟨contract, _, _, _, rfl⟩
  unfold handOver
  split
  · exact ⟨rfl, Nat.le_trans (Nat.le_succ _) (Nat.le_add_right _ _)⟩
  · exact ⟨rfl, Nat.le_succ _⟩

theorem reports_attempt {event : Event} (done : s.attempt event = .ok s') : Reports s s' := by
  cases event with
  | createContract new =>
      rw [createContract_ok done]
      exact .of_faults rfl (Nat.le_succ _)
  | editContract id changes =>
      rcases editContract_ok.mp done with ⟨_, _, _, rfl⟩
      exact .of_faults rfl (Nat.le_refl _)
  | addElevators id elevators unitPrice today =>
      rcases bind_ok.mp done with ⟨_, _, rest⟩
      have both := addElevators_rule (P := fun s' => s'.faults = s.faults ∧ s.nextId ≤ s'.nextId)
        (by
          rintro s₁ s₂ elevator ⟨same, nextId⟩ turn
          rcases addElevator_ok turn with ⟨lift, _, _, rfl⟩
          dsimp only
          split
          · exact ⟨same, Nat.le_succ_of_le nextId⟩
          · exact ⟨same, Nat.le_succ_of_le nextId⟩)
        ⟨rfl, Nat.le_refl _⟩ rest
      exact .of_faults both.1 both.2
  | removeElevator id elevator today =>
      rcases bind_ok.mp done with ⟨_, _, rest⟩
      rcases removeElevator_ok rest with ⟨line, _, _, _, _, rfl⟩
      exact .of_faults rfl (Nat.le_refl _)
  | terminate id day reason =>
      rcases terminate_ok done with ⟨_, _, _, rfl⟩
      exact .of_faults rfl (Nat.le_refl _)
  | renew id startDate endDate carryElevators copyTerms =>
      rcases bind_ok.mp done with ⟨⟨renewed, successor⟩, first, rest⟩
      cases rest
      have both := reports_renew first
      exact .of_faults both.1 both.2
  | expire id today =>
      rcases expire_ok done with rfl | ⟨contract, _, _, rfl | ⟨renewed, _, _, first, rfl | rfl⟩⟩
      · exact .of_faults rfl (Nat.le_refl _)
      · exact .of_faults rfl (Nat.le_refl _)
      · have both := reports_renew first
        exact .of_faults both.1 both.2
      · have both := reports_renew first
        exact .of_faults both.1 both.2
  | createElevator status =>
      rcases bind_ok.mp done with ⟨_, _, rest⟩
      cases rest
      exact .of_faults rfl (Nat.le_succ _)
  | editElevator id status =>
      unfold Firm.attempt editElevator at done
      dsimp only at done
      split at done
      · cases done
      · rcases bind_ok.mp done with ⟨_, _, rest⟩
        cases rest
        exact .of_faults rfl (Nat.le_refl _)
  | recordInspection new now =>
      unfold attempt recordInspection at done
      dsimp only at done
      split at done
      · cases done
      · cases done
        apply reports_syncElevator
        exact .of_faults rfl (Nat.le_succ _)
  | editInspection id changes =>
      unfold attempt editInspection at done
      dsimp only at done
      split at done
      · cases done
      · cases done
        apply reports_syncElevator
        exact .of_faults rfl (Nat.le_refl _)
  | reportByStaff elevator priority technician stoppedElevator someoneTrapped now =>
      unfold attempt reportByStaff at done
      dsimp only at done
      split at done
      · cases done
      · cases done
        exact reports_insertFault s _
  | reportPublic elevator report now =>
      unfold attempt reportPublic at done
      dsimp only at done
      split at done
      · cases done
      · split at done
        · cases done
          exact reports_merge s _ report
        · cases done
          exact reports_insertFault s _
  | reportByPortal elevator report now =>
      unfold attempt reportByPortal at done
      dsimp only at done
      split at done
      · cases done
      · cases done
        exact reports_insertFault s _
  | assign fault technician =>
      rw [transition_ok done]
      exact reports_setFault s fault _
  | arrive fault =>
      rw [transition_ok done]
      exact reports_setFault s fault _
  | resolve fault partsUsed restoreService =>
      rcases resolve_ok done with ⟨_, f, _, _, rfl⟩
      exact .none (Rows.keys_update s.faults fault f) (Nat.le_refl _)
  | close fault now =>
      rw [transition_ok done]
      exact reports_setFault s fault _
  | cancel fault =>
      rw [transition_ok done]
      exact reports_setFault s fault _
  | editFault fault priority billable =>
      rcases bind_ok.mp done with ⟨_, _, rest⟩
      cases rest
      exact reports_setFault s fault _

theorem Numbered.reported (numbered : s.Numbered) (reports : Reports s s') : s'.Numbered := by
  cases reports with
  | none same nextId =>
      refine ⟨?_, ?_⟩
      · unfold Rows.Distinct
        rw [same]
        exact numbered.distinct
      · intro id mem
        rw [same] at mem
        exact Nat.lt_of_lt_of_le (numbered.below id mem) nextId
  | one new nextId =>
      refine ⟨?_, ?_⟩
      · unfold Rows.Distinct
        rw [new]
        refine List.nodup_append.mpr ⟨numbered.distinct, List.nodup_singleton _, ?_⟩
        intro id mem id' mem' same
        rw [List.mem_singleton.mp mem'] at same
        exact absurd (numbered.below id mem) (same ▸ Nat.lt_irrefl _)
      · intro id mem
        rw [new] at mem
        rcases List.mem_append.mp mem with old | last
        · exact Nat.lt_trans (numbered.below id old) nextId
        · rw [List.mem_singleton.mp last]
          exact nextId

/-- Whatever is asked of the firm, its faults keep keys of their own. -/
theorem Numbered.step (numbered : s.Numbered) (event : Event) : (s.step event).Numbered := by
  unfold Firm.step
  cases done : s.attempt event with
  | error failure => exact numbered
  | ok next => exact numbered.reported (reports_attempt done)

end Firm
end Fleet
end Shiftlush
