import Shiftlush.Estate.Standing

namespace Shiftlush
namespace Estate
namespace Register

open References (alive alive_iff countP_group lives lives_iff)
open Transitions (run run_invariant)

/-!
# Counts on the lists

The numbers a customer, a complex and a building are listed with.  A customer's and a complex's lifts
are counted across every building, the deleted ones included; they agree with what the live buildings
say because no live lift stands in a deleted one.
-/

variable {s : Register}

namespace Sound

/-- A live lift's building is there, and live. -/
theorem building_of_lift (sound : s.Sound) {r : Nat × Lift} (mem : r ∈ s.lifts) (here : alive r = true) :
    ∃ row, (r.2.building, row) ∈ s.buildings ∧ s.buildings.get? r.2.building = some row ∧
      alive (r.2.building, row) = true := by
  rcases lives_iff.mp (sound.lift r mem here _ rfl) with ⟨row, found, kept⟩
  exact ⟨row, Rows.mem_of_get? found, found, alive_iff.mpr kept⟩

theorem customer_of_building (sound : s.Sound) {r : Nat × Building} (mem : r ∈ s.buildings) (here : alive r = true) :
    ∃ row, (r.2.customer, row) ∈ s.customers ∧ alive (r.2.customer, row) = true := by
  rcases lives_iff.mp (sound.building r mem here _ rfl) with ⟨row, found, kept⟩
  exact ⟨row, Rows.mem_of_get? found, alive_iff.mpr kept⟩

/-- The lifts that are counted through their building, by building. -/
theorem lifts_by_building (sound : s.Sound) (p : Nat × Lift -> Bool) (q : Building -> Bool)
    (joins : ∀ r ∈ s.lifts, ∀ row, s.buildings.get? r.2.building = some row ->
      (p r = true ↔ alive r = true ∧ q row = true))
    (counted : ∀ r ∈ s.lifts, p r = true -> alive r = true) :
    s.lifts.countP p =
      Rows.total (s.buildings.filter (fun r => alive r && q r.2)) (fun id _ => s.buildingElevators id) := by
  have under (id : Nat) : s.buildingElevators id =
      s.lifts.countP (fun r => alive r && decide (some r.2.building = some id)) := by
    unfold buildingElevators
    simp only [Option.some.injEq]
  simp only [under]
  apply countP_group sound.buildings (fun row : Lift => some row.building)
  intro r mem
  constructor
  · intro here
    have live := counted r mem here
    rcases sound.building_of_lift mem live with ⟨row, there, found, kept⟩
    have passes := ((joins r mem row found).mp here).2
    exact ⟨live, _, there, Bool.and_eq_true_iff.mpr ⟨kept, passes⟩, rfl⟩
  · rintro ⟨live, ⟨key, row⟩, there, passes, same⟩
    cases same
    have found := Rows.get?_of_mem sound.buildings there
    exact (joins r mem row found).mpr ⟨live, (Bool.and_eq_true_iff.mp passes).2⟩

theorem customerElevators_eq (sound : s.Sound) (customer : Nat) : s.customerElevators customer =
    Rows.total (s.buildings.filter (fun r => alive r && decide (r.2.customer = customer)))
      (fun id _ => s.buildingElevators id) := by
  apply sound.lifts_by_building _ (fun row => decide (row.customer = customer))
  · intro r _ row found
    rw [found, Option.map_some, Bool.and_eq_true, decide_eq_true_eq, decide_eq_true_eq, Option.some.injEq]
  · intro r _ here
    exact (Bool.and_eq_true_iff.mp here).1

theorem complexElevators_eq (sound : s.Sound) (complex : Nat) : s.complexElevators complex =
    Rows.total (s.buildings.filter (fun r => alive r && decide (r.2.complex = some complex)))
      (fun id _ => s.buildingElevators id) := by
  apply sound.lifts_by_building _ (fun row => decide (row.complex = some complex))
  · intro r _ row found
    rw [found, Option.bind_some, Bool.and_eq_true]
  · intro r _ here
    exact (Bool.and_eq_true_iff.mp here).1

/-- Each live building is one customer's. -/
theorem buildings_by_customer (sound : s.Sound) : s.buildings.countP alive =
    Rows.total (s.customers.filter alive) (fun id _ => s.customerBuildings id) := by
  have under (id : Nat) : s.customerBuildings id =
      s.buildings.countP (fun r => alive r && decide (some r.2.customer = some id)) := by
    unfold customerBuildings
    simp only [Option.some.injEq]
  simp only [under]
  apply countP_group sound.customers (fun row : Building => some row.customer)
  intro r mem
  constructor
  · intro here
    rcases sound.customer_of_building mem here with ⟨row, there, kept⟩
    exact ⟨here, _, there, kept, rfl⟩
  · rintro ⟨here, _⟩
    exact here

/-- Each live building on a complex is one complex's. -/
theorem buildings_by_complex (sound : s.Sound) :
    s.buildings.countP (fun r => alive r && r.2.complex.isSome) =
      Rows.total (s.complexes.filter alive) (fun id _ => s.complexBuildings id) := by
  apply countP_group sound.complexes (fun row : Building => row.complex)
  intro r mem
  rw [Bool.and_eq_true]
  constructor
  · rintro ⟨here, grouped⟩
    rcases Option.isSome_iff_exists.mp grouped with ⟨complex, named⟩
    rcases lives_iff.mp (sound.complex r mem here complex named) with ⟨row, found, kept⟩
    exact ⟨here, _, Rows.mem_of_get? found, alive_iff.mpr kept, named⟩
  · rintro ⟨here, _, _, _, named⟩
    rw [named]
    exact ⟨here, rfl⟩

/-- Each live lift is one customer's. -/
theorem lifts_by_customer (sound : s.Sound) : s.lifts.countP alive =
    Rows.total (s.customers.filter alive) (fun id _ => s.customerElevators id) := by
  apply countP_group sound.customers (fun row : Lift => (s.buildings.get? row.building).map Building.customer)
  intro r mem
  constructor
  · intro here
    rcases sound.building_of_lift mem here with ⟨row, there, found, kept⟩
    rcases sound.customer_of_building there kept with ⟨owner, listed, live⟩
    refine ⟨here, _, listed, live, ?_⟩
    rw [found, Option.map_some]
  · rintro ⟨here, _⟩
    exact here

end Sound

/-- The numbers add up, whatever was asked before. -/
theorem counts_add_up (events : List Event) :
    (∀ customer, (run step empty events).customerElevators customer =
      Rows.total ((run step empty events).buildings.filter (fun r => alive r && decide (r.2.customer = customer)))
        (fun id _ => (run step empty events).buildingElevators id)) ∧
    (∀ complex, (run step empty events).complexElevators complex =
      Rows.total ((run step empty events).buildings.filter (fun r => alive r && decide (r.2.complex = some complex)))
        (fun id _ => (run step empty events).buildingElevators id)) ∧
    (run step empty events).buildings.countP alive =
      Rows.total ((run step empty events).customers.filter alive)
        (fun id _ => (run step empty events).customerBuildings id) ∧
    (run step empty events).buildings.countP (fun r => alive r && r.2.complex.isSome) =
      Rows.total ((run step empty events).complexes.filter alive)
        (fun id _ => (run step empty events).complexBuildings id) ∧
    (run step empty events).lifts.countP alive =
      Rows.total ((run step empty events).customers.filter alive)
        (fun id _ => (run step empty events).customerElevators id) := by
  have sound : (run step empty events).Sound := run_invariant (fun _ event now => now.step event) events sound_empty
  exact ⟨sound.customerElevators_eq, sound.complexElevators_eq, sound.buildings_by_customer,
    sound.buildings_by_complex, sound.lifts_by_customer⟩

end Register

end Estate
end Shiftlush
