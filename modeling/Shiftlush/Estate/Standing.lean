import Shiftlush.Estate.Requests
import Shiftlush.Fleet.Keys

namespace Shiftlush
namespace Estate

open Fleet (Contract ContractElevator Firm)
open References (Refers alive find? isDeleted lives strike)
open Transitions (run run_invariant)

/-!
# What a register stands on

Whatever is asked, a lift that lives stands in a building that does, a building and a contract
belong to a customer that does, a building that names a complex names one that does, and an open
line is of a contract and a lift that do.  A complex may outlive its customer, whose delete does
not ask for it.
-/

/-! ## The firm's services -/

section Services

variable {customers contracts lifts : Nat -> Bool}

/-- What lives of the contracts belongs to a customer that lives, and open lines join what lives. -/
structure Placed (customers contracts lifts : Nat -> Bool) (s : Firm) : Prop where
  owned : ∀ r ∈ s.contracts, contracts r.1 = true -> customers r.2.customer = true
  joined : ∀ r ∈ s.lines, r.2.isOpen = true -> contracts r.2.contract = true ∧ lifts r.2.elevator = true

namespace Placed

variable {s s' : Firm}

theorem same (placed : Placed customers contracts lifts s) (sameContracts : s'.contracts = s.contracts)
    (sameLines : s'.lines = s.lines) : Placed customers contracts lifts s' where
  owned := by
    rw [sameContracts]
    exact placed.owned
  joined := by
    rw [sameLines]
    exact placed.joined

/-- Lines only close. -/
theorem shut (placed : Placed customers contracts lifts s) {g : Nat × ContractElevator -> Nat × ContractElevator}
    (shuts : Firm.Shuts g) : Placed customers contracts lifts { s with lines := s.lines.map g } where
  owned := placed.owned
  joined := by
    intro r mem isOpen
    rcases List.mem_map.mp mem with ⟨r', old, rfl⟩
    have stays := (shuts r').2.2.2 isOpen
    rw [stays] at isOpen ⊢
    exact placed.joined r' old isOpen

theorem closeLines (placed : Placed customers contracts lifts s) (id : Nat) (day : Calendar.Date) :
    Placed customers contracts lifts (s.closeLines id day) :=
  placed.shut (Firm.shuts_closing (fun r => Fleet.openLine id r = true) day)

theorem release (placed : Placed customers contracts lifts s) (id : Nat) (day : Calendar.Date) :
    Placed customers contracts lifts (s.release id day) :=
  (placed.closeLines id day).same rfl rfl

theorem setContract (placed : Placed customers contracts lifts s) {id : Nat} {f : Contract -> Contract}
    (kept : ∀ contract, (f contract).customer = contract.customer ∨ customers (f contract).customer = true) :
    Placed customers contracts lifts (s.setContract id f) where
  owned := by
    intro r mem here
    rcases Rows.mem_update.mp mem with ⟨old, _⟩ | ⟨contract, old, rfl⟩
    · exact placed.owned r old here
    · rcases kept contract with stays | lives
      · rw [stays]
        exact placed.owned _ old here
      · exact lives
  joined := placed.joined

/-- A new contract, of a customer that lives. -/
theorem insertContract (placed : Placed customers contracts lifts s) {contract : Contract} {id nextId : Nat}
    (lives : customers contract.customer = true) :
    Placed customers contracts lifts { s with contracts := s.contracts.insert id contract, nextId := nextId } where
  owned := by
    intro r mem here
    rcases List.mem_append.mp mem with old | new
    · exact placed.owned r old here
    · rw [List.mem_singleton.mp new]
      exact lives
  joined := placed.joined

/-- A lift that lives, under a contract that does. -/
theorem addElevator (placed : Placed customers contracts lifts s) {id elevator : Nat} {unitPrice : Option Cents}
    {today : Calendar.Date} (contract : contracts id = true) (lift : lifts elevator = true)
    (done : s.addElevator id unitPrice today elevator = .ok s') : Placed customers contracts lifts s' := by
  rcases Firm.addElevator_ok done with ⟨row, _, _, rfl⟩
  have added : Placed customers contracts lifts { s with
      lines := s.lines.insert s.nextId ⟨id, elevator, unitPrice, today, none⟩
      nextId := s.nextId + 1 } := by
    refine ⟨placed.owned, ?_⟩
    intro r mem isOpen
    rcases List.mem_append.mp mem with old | new
    · exact placed.joined r old isOpen
    · rw [List.mem_singleton.mp new]
      exact ⟨contract, lift⟩
  dsimp only
  split
  · exact added.same rfl rfl
  · exact added

theorem addElevators (placed : Placed customers contracts lifts s) {id : Nat} {elevators : List Nat}
    {unitPrice : Option Cents} {today : Calendar.Date} (contract : contracts id = true)
    (each : ∀ elevator ∈ elevators, lifts elevator = true)
    (done : Firm.addElevators id unitPrice today elevators s = .ok s') : Placed customers contracts lifts s' := by
  induction elevators generalizing s with
  | nil =>
      cases done
      exact placed
  | cons elevator elevators ih =>
      rcases bind_ok.mp done with ⟨next, first, rest⟩
      exact ih (placed.addElevator contract (each elevator List.mem_cons_self) first)
        (fun other mem => each other (List.mem_cons_of_mem _ mem)) rest

/-- The successor's lines join the lifts its predecessor's did. -/
theorem handOver (placed : Placed customers contracts lifts s) {id successor : Nat} {startDate : Calendar.Date}
    {carryElevators copyTerms : Bool} (new : contracts successor = true) :
    Placed customers contracts lifts (s.handOver id successor startDate carryElevators copyTerms) := by
  unfold Firm.handOver
  split
  · have closed := placed.closeLines id startDate
    refine ⟨placed.owned, ?_⟩
    intro r mem isOpen
    rcases List.mem_append.mp mem with old | moved
    · exact closed.joined r old isOpen
    · rcases Firm.carried_from moved with ⟨atSuccessor, _, _, _, _, r', held, same⟩
      rw [atSuccessor, ← same]
      rcases Firm.mem_openLines.mp held with ⟨before, _, stillOpen⟩
      exact ⟨new, (placed.joined r' before stillOpen).2⟩
  · exact placed.release id startDate

theorem renew (placed : Placed customers contracts lifts s) {id successor : Nat} {startDate endDate : Calendar.Date}
    {carryElevators copyTerms : Bool} (contract : contracts id = true) (new : contracts s.nextId = true)
    (done : s.renew id startDate endDate carryElevators copyTerms = .ok (s', successor)) :
    Placed customers contracts lifts s' := by
  rcases Firm.renew_ok done with ⟨row, found, _, rfl, rfl⟩
  have owner := placed.owned _ (Rows.mem_of_get? found) contract
  have opened : Placed customers contracts lifts (s.withSuccessor row id startDate endDate copyTerms) :=
    placed.insertContract owner
  exact (opened.handOver new).setContract (fun _ => Or.inl rfl)

/-- A request to the services that names what lives. -/
theorem attempt (placed : Placed customers contracts lifts s) {event : Fleet.Event}
    (new : contracts s.nextId = true) (customer : ∀ id, event.customer = some id -> customers id = true)
    (contract : ∀ id, event.contract = some id -> contracts id = true) (lift : ∀ id ∈ event.lifts, lifts id = true)
    (done : s.attempt event = .ok s') : Placed customers contracts lifts s' := by
  cases event with
  | createContract draft =>
      rw [Firm.createContract_ok done]
      exact placed.insertContract (customer _ rfl)
  | editContract id changes =>
      rcases Firm.editContract_ok.mp done with ⟨_, _, _, rfl⟩
      apply placed.setContract
      intro row
      cases moved : changes.customer with
      | none => exact Or.inl (by unfold Fleet.ContractChanges.apply; rw [moved]; rfl)
      | some other => exact Or.inr (by unfold Fleet.ContractChanges.apply; rw [moved]; exact customer other moved)
  | addElevators id elevators unitPrice today =>
      rcases bind_ok.mp done with ⟨_, _, rest⟩
      exact placed.addElevators (contract id rfl) lift rest
  | removeElevator id elevator today =>
      rcases bind_ok.mp done with ⟨_, _, rest⟩
      rcases Firm.removeElevator_ok rest with ⟨line, _, _, _, _, rfl⟩
      exact (placed.shut (Firm.shuts_closing (fun r => r.1 = line.1) today)).same rfl rfl
  | terminate id day reason =>
      rcases Firm.terminate_ok done with ⟨_, _, _, rfl⟩
      exact (placed.release id day).setContract (fun _ => Or.inl rfl)
  | renew id startDate endDate carryElevators copyTerms =>
      rcases bind_ok.mp done with ⟨⟨renewed, successor⟩, first, rest⟩
      cases rest
      exact placed.renew (contract id rfl) new first
  | expire id today =>
      rcases Firm.expire_ok done with rfl | ⟨row, _, _, rfl | ⟨renewed, _, _, first, rfl | rfl⟩⟩
      · exact placed
      · exact (placed.release id _).setContract (fun _ => Or.inl rfl)
      · exact placed.renew (contract id rfl) new first
      · exact (placed.renew (contract id rfl) new first).setContract (fun _ => Or.inl rfl)
  | createElevator status =>
      rcases bind_ok.mp done with ⟨_, _, rest⟩
      cases rest
      exact placed.same rfl rfl
  | editElevator id status =>
      unfold Firm.attempt Firm.editElevator at done
      dsimp only at done
      split at done
      · cases done
      · rcases bind_ok.mp done with ⟨_, _, rest⟩
        cases rest
        exact placed.same rfl rfl
  | _ =>
      have served := Firm.attempt_served (by rfl) done
      exact placed.same served.contracts served.lines

end Placed

end Services

/-- The same firm, beside tables that have changed. -/
theorem Placed.revise {customers contracts lifts customers' contracts' lifts' : Nat -> Bool} {s : Firm}
    (placed : Placed customers contracts lifts s) (fewer : ∀ id, contracts' id = true -> contracts id = true)
    (owned : ∀ r ∈ s.contracts, contracts' r.1 = true -> customers r.2.customer = true ->
      customers' r.2.customer = true)
    (joined : ∀ r ∈ s.lines, r.2.isOpen = true -> contracts r.2.contract = true -> lifts r.2.elevator = true ->
      contracts' r.2.contract = true ∧ lifts' r.2.elevator = true) : Placed customers' contracts' lifts' s where
  owned r mem here := owned r mem here (placed.owned r mem (fewer _ here))
  joined r mem isOpen :=
    have before := placed.joined r mem isOpen
    joined r mem isOpen before.1 before.2

theorem nextId_attempt {s s' : Firm} {event : Fleet.Event} (done : s.attempt event = .ok s') :
    s.nextId ≤ s'.nextId := by
  cases Firm.reports_attempt done with
  | none _ later => exact later
  | one _ later => exact Nat.le_of_lt later

/-! ## The register -/

namespace Register

/-- Keys are unique and below the next one, and what lives stands on what lives. -/
structure Sound (s : Register) : Prop where
  customers : s.customers.Distinct
  complexes : s.complexes.Distinct
  buildings : s.buildings.Distinct
  lifts : s.lifts.Distinct
  customersBelow : s.customers.Below s.nextId
  complexesBelow : s.complexes.Below s.nextId
  buildingsBelow : s.buildings.Below s.nextId
  liftsBelow : s.lifts.Below s.fleet.nextId
  keyed : s.fleet.Keyed
  struckBelow : ∀ id ∈ s.struck, id < s.fleet.nextId
  lift : Refers s.lifts alive (fun row => some row.building) (lives s.buildings)
  building : Refers s.buildings alive (fun row => some row.customer) (lives s.customers)
  complex : Refers s.buildings alive Building.complex (lives s.complexes)
  placed : Placed (lives s.customers) (fun id => decide (id ∉ s.struck)) (lives s.lifts) s.fleet

theorem below_nil {ρ : Type} {bound : Nat} : Rows.Below ([] : Rows ρ) bound := by
  intro id here
  cases here

theorem sound_empty : empty.Sound where
  customers := List.nodup_nil
  complexes := List.nodup_nil
  buildings := List.nodup_nil
  lifts := List.nodup_nil
  customersBelow := below_nil
  complexesBelow := below_nil
  buildingsBelow := below_nil
  liftsBelow := below_nil
  keyed := Firm.keyed_empty
  struckBelow := by
    intro id here
    cases here
  lift := References.refers_nil
  building := References.refers_nil
  complex := References.refers_nil
  placed := by
    constructor
    · intro r mem
      cases mem
    · intro r mem
      cases mem

variable {s s' : Register}

/-! ## What is looked up -/

theorem checkNamed_ok {ρ : Type} [References.SoftDelete ρ] {rows : Rows ρ} {id : Option Nat} :
    checkNamed rows id = .ok () ↔ ∀ other, id = some other -> lives rows other = true := by
  unfold checkNamed
  cases id with
  | none => simp
  | some id =>
      rw [Option.all_some]
      cases here : lives rows id <;> simp [here]

theorem getObject_ok {ρ : Type} [References.SoftDelete ρ] {rows : Rows ρ} {id : Nat} {row : ρ}
    (found : getObject rows id = .ok row) : find? rows id = some row := by
  unfold getObject at found
  cases here : find? rows id with
  | none =>
      rw [here] at found
      cases found
  | some row' =>
      rw [here] at found
      rw [Except.ok.inj found]

theorem step_ok {event : Event} (done : s.attempt event = .ok s') : s.step event = s' := by
  unfold step
  rw [done]

theorem attemptFleet_ok {event : Fleet.Event} :
    s.attemptFleet event = .ok s' ↔ ∃ fleet, s.fleet.attempt event = .ok fleet ∧ s' = { s with fleet := fleet } := by
  unfold attemptFleet
  cases s.fleet.attempt event with
  | error failure => simp
  | ok fleet => simp [eq_comm]

/-- What the views look up of a request to the services. -/
theorem checkFleet_ok {event : Fleet.Event} (passed : s.checkFleet event = .ok ()) :
    (∀ id, event.customer = some id -> lives s.customers id = true) ∧
      (∀ id, event.contract = some id -> s.contractLives id = true) ∧
      (∀ id ∈ event.lifts, lives s.lifts id = true) := by
  unfold checkFleet at passed
  split at passed
  · cases passed
  · rename_i customer
    split at passed
    · cases passed
    · rename_i contract
      split at passed
      · cases passed
      · rename_i lift
        refine ⟨?_, ?_, ?_⟩
        · intro id named
          simpa [named] using customer
        · intro id named
          simpa [named] using contract
        · intro id mem
          simp only [List.any_eq_true, not_exists, not_and, Bool.not_eq_true', Bool.not_eq_false] at lift
          exact lift id mem

/-- The token saved is one of those drawn. -/
theorem saveWithQrToken_ok {α : Type} {save : String -> Except IntegrityError α} {draw : Nat -> String} {row : α}
    {left k : Nat} (done : saveWithQrToken save draw left k = .ok row) :
    ∃ j, k ≤ j ∧ j ≤ k + left ∧ save (draw j) = .ok row := by
  induction left generalizing k with
  | zero => exact ⟨k, Nat.le_refl k, Nat.le_refl k, done⟩
  | succ left ih =>
      unfold saveWithQrToken at done
      cases outcome : save (draw k) with
      | ok written =>
          rw [outcome] at done
          exact ⟨k, Nat.le_refl k, Nat.le_add_right k _, outcome.trans done⟩
      | error refusal =>
          rw [outcome] at done
          cases refusal with
          | registrationNumber => cases done
          | qrToken =>
              rcases ih done with ⟨j, from_, within, found⟩
              exact ⟨j, by omega, by omega, found⟩

/-- A row that is saved takes no token and no number of another's. -/
theorem checkLift_ok {id : Nat} {row written : Lift} (done : s.checkLift id row = .ok written) :
    written = row ∧ s.tokenTaken id row.qrToken = false ∧ s.numberTaken id row.registrationNumber = false := by
  unfold checkLift at done
  split at done
  · cases done
  · rename_i free
    split at done
    · cases done
    · rename_i unused
      exact ⟨(Except.ok.inj done).symm, Bool.eq_false_iff.mpr free, Bool.eq_false_iff.mpr unused⟩

theorem unlessInUse_ok {inUse : Bool} {refusal : Failure} {next : Register} :
    (if inUse = true then Except.error refusal else .ok next) = .ok s' ↔ inUse = false ∧ s' = next := by
  cases inUse with
  | false => simp [eq_comm]
  | true => simp

theorem createElevator_ok {building : Nat} {number : String} {status : Option Fleet.ElevatorStatus}
    {draw : Nat -> String} (done : s.createElevator building number status draw = .ok s') :
    ∃ fleet row, lives s.buildings building = true ∧ s.fleet.attempt (.createElevator status) = .ok fleet ∧
      row.building = building ∧ s.checkLift s.fleet.nextId row = .ok row ∧
      (∃ j, j ≤ 0 + (maxAttempts - 1) ∧ row.qrToken = draw j) ∧
      s' = { s with fleet := fleet, lifts := s.lifts.insert s.fleet.nextId row } := by
  rcases bind_ok.mp done with ⟨_, named, next⟩
  rcases bind_ok.mp next with ⟨_, first, rest⟩
  rcases attemptFleet_ok.mp first with ⟨fleet, served, rfl⟩
  dsimp only at rest
  split at rest
  · rename_i row saved
    rcases saveWithQrToken_ok saved with ⟨j, _, within, written⟩
    rcases checkLift_ok written with ⟨rfl, _, _⟩
    exact ⟨fleet, _, checkNamed_ok.mp named building rfl, served, rfl, written, ⟨j, within, rfl⟩,
      (Except.ok.inj rest).symm⟩
  · cases rest

theorem editElevator_ok {id : Nat} {building : Option Nat} {number : Option String}
    {status : Option Fleet.ElevatorStatus} (done : s.editElevator id building number status = .ok s') :
    ∃ fleet row, find? s.lifts id = some row ∧ (∀ other, building = some other -> lives s.buildings other = true) ∧
      s.fleet.attempt (.editElevator id status) = .ok fleet ∧
      (∃ written, s.checkLift id { row with
        building := building.getD row.building
        registrationNumber := number.getD row.registrationNumber } = .ok written) ∧
      s' = { s with
        fleet := fleet
        lifts := s.lifts.update id (fun row =>
          { row with
            building := building.getD row.building
            registrationNumber := number.getD row.registrationNumber }) } := by
  rcases bind_ok.mp done with ⟨row, found, named⟩
  rcases bind_ok.mp named with ⟨_, there, next⟩
  rcases bind_ok.mp next with ⟨_, first, rest⟩
  rcases attemptFleet_ok.mp first with ⟨fleet, served, rfl⟩
  dsimp only at rest
  split at rest
  · rename_i written checked
    exact ⟨fleet, row, getObject_ok found, checkNamed_ok.mp there, served, ⟨written, checked⟩,
      (Except.ok.inj rest).symm⟩
  · cases rest

theorem regenerateQr_ok {id : Nat} {draw : Nat -> String} (done : s.regenerateQr id draw = .ok s') :
    ∃ row j, j ≤ 0 + (maxAttempts - 1) ∧ find? s.lifts id = some row ∧
      s.checkLift id { row with qrToken := draw j } = .ok { row with qrToken := draw j } ∧
      s' = { s with lifts := s.lifts.update id (fun row => { row with qrToken := draw j }) } := by
  rcases bind_ok.mp done with ⟨row, found, rest⟩
  split at rest
  · rename_i written saved
    rcases saveWithQrToken_ok saved with ⟨j, _, within, checked⟩
    rcases checkLift_ok checked with ⟨rfl, _, _⟩
    exact ⟨row, j, within, getObject_ok found, checked, (Except.ok.inj rest).symm⟩
  · cases rest

theorem deleteContract_ok {id : Nat} (done : s.attempt (.deleteContract id) = .ok s') :
    s.contractLives id = true ∧ s.fleet.openLines id = [] ∧ s' = { s with struck := id :: s.struck } := by
  unfold attempt at done
  dsimp only at done
  split at done
  · cases done
  · rename_i here
    split at done
    · cases done
    · rename_i free
      exact ⟨by simpa using here, by simpa using free, (Except.ok.inj done).symm⟩

theorem fleet_ok {event : Fleet.Event} (done : s.attempt (.fleet event) = .ok s') :
    ∃ fleet, s.fleet.attempt event = .ok fleet ∧ (∀ id, event.customer = some id -> lives s.customers id = true) ∧
      (∀ id, event.contract = some id -> s.contractLives id = true) ∧
      (∀ id ∈ event.lifts, lives s.lifts id = true) ∧ s' = { s with fleet := fleet } := by
  unfold attempt at done
  dsimp only at done
  split at done
  · cases done
  · rcases bind_ok.mp done with ⟨_, checked, rest⟩
    rcases attemptFleet_ok.mp rest with ⟨fleet, served, rfl⟩
    rcases checkFleet_ok checked with ⟨customer, contract, lift⟩
    exact ⟨fleet, served, customer, contract, lift, rfl⟩

/-! ## What is written -/

theorem below_update {ρ : Type} {rows : Rows ρ} {bound : Nat} (below : rows.Below bound) (id : Nat) (f : ρ -> ρ) :
    (rows.update id f).Below bound :=
  below.of_isSome (fun _ => Rows.isSome_get?_update _ _ _ _)

namespace Sound

theorem createCustomer (sound : s.Sound) :
    Sound { s with customers := s.customers.insert s.nextId ⟨false⟩, nextId := s.nextId + 1 } :=
  have more : ∀ id, lives s.customers id = true -> lives (s.customers.insert s.nextId ⟨false⟩) id = true :=
    fun _ => References.lives_insert_of_lives
  { sound with
    customers := sound.customers.insert (sound.customersBelow.absent (Nat.le_refl _))
    customersBelow := sound.customersBelow.insert _
    complexesBelow := sound.complexesBelow.mono (Nat.le_succ _)
    buildingsBelow := sound.buildingsBelow.mono (Nat.le_succ _)
    building := sound.building.mono more
    placed := sound.placed.revise (fun _ => id) (fun r _ _ here => more r.2.customer here)
      (fun _ _ _ contract lift => ⟨contract, lift⟩) }

/-- A building and a contract would be left without their customer; a complex is not asked about. -/
theorem deleteCustomer (sound : s.Sound) {id : Nat} (free : s.customerInUse id = false) :
    Sound { s with customers := strike s.customers id } := by
  rcases Bool.or_eq_false_iff.mp free with ⟨noBuilding, noContract⟩
  exact { sound with
    customers := sound.customers.update id _
    customersBelow := below_update sound.customersBelow id _
    building := sound.building.leave References.lives_strike noBuilding
    placed := sound.placed.revise (fun _ here => here) (by
      intro r mem contract owner
      rw [References.lives_strike, owner, Bool.true_and]
      have none_ := List.any_eq_false.mp noContract r mem
      rw [contract] at none_
      exact decide_eq_true (fun same => none_ (by rw [same]; simp)))
      (fun _ _ _ contract lift => ⟨contract, lift⟩) }

theorem createComplex (sound : s.Sound) (customer : Nat) :
    Sound { s with complexes := s.complexes.insert s.nextId ⟨customer, false⟩, nextId := s.nextId + 1 } :=
  { sound with
    complexes := sound.complexes.insert (sound.complexesBelow.absent (Nat.le_refl _))
    customersBelow := sound.customersBelow.mono (Nat.le_succ _)
    complexesBelow := sound.complexesBelow.insert _
    buildingsBelow := sound.buildingsBelow.mono (Nat.le_succ _)
    complex := sound.complex.mono (fun _ => References.lives_insert_of_lives) }

theorem editComplex (sound : s.Sound) (id : Nat) {f : Complex -> Complex}
    (keeps : ∀ row, isDeleted (f row) = isDeleted row) : Sound { s with complexes := s.complexes.update id f } :=
  { sound with
    complexes := sound.complexes.update id f
    complexesBelow := below_update sound.complexesBelow id f
    complex := sound.complex.congr (References.lives_update keeps) }

theorem deleteComplex (sound : s.Sound) {id : Nat} (free : s.complexInUse id = false) :
    Sound { s with complexes := strike s.complexes id } :=
  { sound with
    complexes := sound.complexes.update id _
    complexesBelow := below_update sound.complexesBelow id _
    complex := sound.complex.leave References.lives_strike free }

theorem createBuilding (sound : s.Sound) {customer : Nat} {complex : Option Nat}
    (owner : lives s.customers customer = true) (site : ∀ id, complex = some id -> lives s.complexes id = true) :
    Sound { s with
      buildings := s.buildings.insert s.nextId ⟨customer, complex, false⟩
      nextId := s.nextId + 1 } :=
  { sound with
    buildings := sound.buildings.insert (sound.buildingsBelow.absent (Nat.le_refl _))
    customersBelow := sound.customersBelow.mono (Nat.le_succ _)
    complexesBelow := sound.complexesBelow.mono (Nat.le_succ _)
    buildingsBelow := sound.buildingsBelow.insert _
    lift := sound.lift.mono (fun _ => References.lives_insert_of_lives)
    building := by
      apply sound.building.insert
      intro id named
      cases named
      exact owner
    complex := sound.complex.insert site }

theorem editBuilding (sound : s.Sound) (id : Nat) {f : Building -> Building}
    (keeps : ∀ row, isDeleted (f row) = isDeleted row)
    (owner : ∀ row, (f row).customer = row.customer ∨ lives s.customers (f row).customer = true)
    (site : ∀ row id', (f row).complex = some id' -> row.complex = some id' ∨ lives s.complexes id' = true) :
    Sound { s with buildings := s.buildings.update id f } :=
  have before : ∀ row, alive (id, f row) = true -> alive (id, row) = true := References.alive_kept keeps
  { sound with
    buildings := sound.buildings.update id f
    buildingsBelow := below_update sound.buildingsBelow id f
    lift := sound.lift.congr (References.lives_update keeps)
    building := sound.building.move before owner
    complex := sound.complex.update before site }

/-- No lift that lives is left in it. -/
theorem deleteBuilding (sound : s.Sound) {id : Nat} (free : s.buildingInUse id = false) :
    Sound { s with buildings := strike s.buildings id } :=
  { sound with
    buildings := sound.buildings.update id _
    buildingsBelow := below_update sound.buildingsBelow id _
    lift := sound.lift.leave References.lives_strike free
    building := sound.building.strike id (fun _ => rfl)
    complex := sound.complex.strike id (fun _ => rfl) }

/-- The firm's services run beside tables that stay. -/
theorem serve (sound : s.Sound) {event : Fleet.Event} {fleet : Firm} (done : s.fleet.attempt event = .ok fleet)
    (customer : ∀ id, event.customer = some id -> lives s.customers id = true)
    (contract : ∀ id, event.contract = some id -> id ∉ s.struck)
    (lift : ∀ id ∈ event.lifts, lives s.lifts id = true) : Sound { s with fleet := fleet } :=
  have later : s.fleet.nextId ≤ fleet.nextId := nextId_attempt done
  have fresh : s.fleet.nextId ∉ s.struck := fun gone => Nat.lt_irrefl _ (sound.struckBelow _ gone)
  { sound with
    liftsBelow := sound.liftsBelow.mono later
    keyed := sound.keyed.attempt done
    struckBelow := fun id gone => Nat.lt_of_lt_of_le (sound.struckBelow id gone) later
    placed := sound.placed.attempt (decide_eq_true fresh) customer
      (fun id named => decide_eq_true (contract id named)) lift done }

/-- A lift under a key that the services have drawn. -/
theorem insertLift (sound : s.Sound) {id : Nat} {row : Lift} (absent : s.lifts.get? id = none)
    (drawn : id < s.fleet.nextId) (there : lives s.buildings row.building = true) :
    Sound { s with lifts := s.lifts.insert id row } :=
  { sound with
    lifts := sound.lifts.insert absent
    liftsBelow := by
      apply sound.liftsBelow.append (Nat.le_refl _)
      intro r new
      rw [List.mem_singleton.mp new]
      exact drawn
    lift := by
      apply sound.lift.insert
      intro id' named
      cases named
      exact there
    placed := sound.placed.revise (fun _ here => here) (fun _ _ _ owner => owner)
      (fun _ _ _ contract lift => ⟨contract, References.lives_insert_of_lives lift⟩) }

theorem editLift (sound : s.Sound) (id : Nat) {f : Lift -> Lift} (keeps : ∀ row, isDeleted (f row) = isDeleted row)
    (moved : ∀ row, (f row).building = row.building ∨ lives s.buildings (f row).building = true) :
    Sound { s with lifts := s.lifts.update id f } :=
  { sound with
    lifts := sound.lifts.update id f
    liftsBelow := below_update sound.liftsBelow id f
    lift := sound.lift.move (References.alive_kept keeps) moved
    placed := sound.placed.revise (fun _ here => here) (fun _ _ _ owner => owner)
      (fun _ _ _ contract lift => ⟨contract, (References.lives_update keeps _).trans lift⟩) }

/-- No open line is left to it. -/
theorem deleteElevator (sound : s.Sound) {id : Nat} (free : s.fleet.isHeld id = false) :
    Sound { s with lifts := strike s.lifts id } :=
  { sound with
    lifts := sound.lifts.update id _
    liftsBelow := below_update sound.liftsBelow id _
    lift := sound.lift.strike id (fun _ => rfl)
    placed := sound.placed.revise (fun _ here => here) (fun _ _ _ owner => owner) (by
      intro r mem isOpen contract lift
      refine ⟨contract, ?_⟩
      rw [References.lives_strike, lift, Bool.true_and]
      apply decide_eq_true
      intro same
      have held : s.fleet.isHeld id = true := Firm.isHeld_iff.mpr ⟨r, mem, same, isOpen⟩
      rw [free] at held
      cases held) }

/-- Its lines have closed before. -/
theorem deleteContract (sound : s.Sound) {id : Nat} (here : s.contractLives id = true)
    (free : s.fleet.openLines id = []) : Sound { s with struck := id :: s.struck } :=
  { sound with
    struckBelow := by
      intro id' gone
      rcases List.mem_cons.mp gone with rfl | before
      · exact sound.keyed.contracts id' (Bool.and_eq_true_iff.mp here).1
      · exact sound.struckBelow id' before
    placed := sound.placed.revise
      (fun id' kept => decide_eq_true (fun gone => of_decide_eq_true kept (List.mem_cons_of_mem _ gone)))
      (fun _ _ _ owner => owner) (by
      intro r mem isOpen contract lift
      refine ⟨decide_eq_true ?_, lift⟩
      intro gone
      rcases List.mem_cons.mp gone with same | before
      · have listed := Firm.mem_openLines.mpr ⟨mem, same, isOpen⟩
        rw [free] at listed
        cases listed
      · exact of_decide_eq_true contract before) }

/-! ## A request -/

theorem attempt (sound : s.Sound) {event : Event} (done : s.attempt event = .ok s') : s'.Sound := by
  cases event with
  | createCustomer =>
      cases done
      exact sound.createCustomer
  | deleteCustomer id =>
      rcases bind_ok.mp done with ⟨_, _, rest⟩
      rcases unlessInUse_ok.mp rest with ⟨free, rfl⟩
      exact sound.deleteCustomer free
  | createComplex customer =>
      rcases bind_ok.mp done with ⟨_, _, rest⟩
      cases rest
      exact sound.createComplex customer
  | editComplex id customer =>
      rcases bind_ok.mp done with ⟨_, _, named⟩
      rcases bind_ok.mp named with ⟨_, _, rest⟩
      cases rest
      exact sound.editComplex id (fun _ => rfl)
  | deleteComplex id =>
      rcases bind_ok.mp done with ⟨_, _, rest⟩
      rcases unlessInUse_ok.mp rest with ⟨free, rfl⟩
      exact sound.deleteComplex free
  | createBuilding customer complex =>
      rcases bind_ok.mp done with ⟨_, owner, checked⟩
      rcases bind_ok.mp checked with ⟨_, site, agreed⟩
      rcases bind_ok.mp agreed with ⟨_, _, rest⟩
      cases rest
      exact sound.createBuilding (checkNamed_ok.mp owner customer rfl) (checkNamed_ok.mp site)
  | editBuilding id customer complex =>
      rcases bind_ok.mp done with ⟨_, _, named⟩
      rcases bind_ok.mp named with ⟨_, owner, checked⟩
      rcases bind_ok.mp checked with ⟨_, site, agreed⟩
      rcases bind_ok.mp agreed with ⟨_, _, rest⟩
      cases rest
      refine sound.editBuilding id (fun row => ?_) ?_ ?_
      · rfl
      · intro row
        cases customer with
        | none => exact Or.inl rfl
        | some other => exact Or.inr (checkNamed_ok.mp owner other rfl)
      · intro row id' at_id
        cases complex with
        | none => exact Or.inl at_id
        | some other => exact Or.inr (checkNamed_ok.mp site id' at_id)
  | deleteBuilding id =>
      rcases bind_ok.mp done with ⟨_, _, rest⟩
      rcases unlessInUse_ok.mp rest with ⟨free, rfl⟩
      exact sound.deleteBuilding free
  | createElevator building registrationNumber status draw =>
      rcases createElevator_ok done with ⟨fleet, row, there, served, atBuilding, _, _, rfl⟩
      have drawn : fleet.nextId = s.fleet.nextId + 1 := by
        rcases bind_ok.mp served with ⟨_, _, rest⟩
        cases rest
        rfl
      have before := sound.serve served (fun _ named => nomatch named) (fun _ named => nomatch named)
        (fun _ mem => nomatch mem)
      apply before.insertLift (sound.liftsBelow.absent (Nat.le_refl _))
      · rw [drawn]
        exact Nat.lt_succ_self _
      · rw [atBuilding]
        exact there
  | editElevator id building registrationNumber status =>
      rcases editElevator_ok done with ⟨fleet, row, _, there, served, _, rfl⟩
      have before := sound.serve served (fun _ named => nomatch named) (fun _ named => nomatch named)
        (fun _ mem => nomatch mem)
      refine before.editLift id (fun row => ?_) ?_
      · rfl
      · intro row
        cases building with
        | none => exact Or.inl rfl
        | some other => exact Or.inr (there other rfl)
  | regenerateQr id draw =>
      rcases regenerateQr_ok done with ⟨row, j, _, _, _, rfl⟩
      exact sound.editLift id (fun _ => rfl) (fun _ => Or.inl rfl)
  | deleteElevator id =>
      rcases bind_ok.mp done with ⟨_, _, rest⟩
      rcases unlessInUse_ok.mp rest with ⟨free, rfl⟩
      exact sound.deleteElevator free
  | deleteContract id =>
      rcases deleteContract_ok done with ⟨here, free, rfl⟩
      exact sound.deleteContract here free
  | fleet event =>
      rcases fleet_ok done with ⟨fleet, served, customer, contract, lift, rfl⟩
      exact sound.serve served customer
        (fun id named => of_decide_eq_true (Bool.and_eq_true_iff.mp (contract id named)).2) lift
  | elsewhere token =>
      rcases unlessInUse_ok.mp done with ⟨_, rfl⟩
      exact { sound with }

theorem step (sound : s.Sound) (event : Event) : (s.step event).Sound := by
  unfold Register.step
  cases done : s.attempt event with
  | ok next => exact sound.attempt done
  | error _ => exact sound

/-- An open line's contract is one the firm has. -/
theorem contractLives_of_open (sound : s.Sound) {r : Nat × ContractElevator} (mem : r ∈ s.fleet.lines)
    (isOpen : r.2.isOpen = true) : s.contractLives r.2.contract = true :=
  Bool.and_eq_true_iff.mpr ⟨sound.keyed.covered r mem, (sound.placed.joined r mem isOpen).1⟩

end Sound

/-- Whatever is asked of a firm, its lifts, buildings, contracts and open lines stand on what lives. -/
theorem estate_stands (events : List Event) :
    (∀ r ∈ (run step empty events).lifts, alive r = true ->
      lives (run step empty events).buildings r.2.building = true) ∧
    (∀ r ∈ (run step empty events).buildings, alive r = true ->
      lives (run step empty events).customers r.2.customer = true ∧
        ∀ id, r.2.complex = some id -> lives (run step empty events).complexes id = true) ∧
    (∀ r ∈ (run step empty events).fleet.contracts, r.1 ∉ (run step empty events).struck ->
      lives (run step empty events).customers r.2.customer = true) ∧
    (∀ r ∈ (run step empty events).fleet.lines, r.2.isOpen = true ->
      (run step empty events).contractLives r.2.contract = true ∧
        lives (run step empty events).lifts r.2.elevator = true) := by
  have sound : (run step empty events).Sound := run_invariant (fun _ event now => now.step event) events sound_empty
  refine ⟨?_, ?_, ?_, ?_⟩
  · intro r mem here
    exact sound.lift r mem here _ rfl
  · intro r mem here
    exact ⟨sound.building r mem here _ rfl, sound.complex r mem here⟩
  · intro r mem kept
    exact sound.placed.owned r mem (decide_eq_true kept)
  · intro r mem isOpen
    exact ⟨sound.contractLives_of_open mem isOpen, (sound.placed.joined r mem isOpen).2⟩

end Register

end Estate
end Shiftlush
