import Shiftlush.Tilings
import Shiftlush.Billing.PeriodsOnce

namespace Shiftlush

/-! ## Days follow one another -/

namespace Calendar
namespace Date

instance : SuccOrder Date := SuccOrder.ofSuccLeIff next (by
  intro d d'
  rw [le_iff, lt_iff, ordinal_next]
  omega)

instance : NoMaxOrder Date where
  exists_gt d := by
    refine ⟨d.next, ?_⟩
    rw [lt_iff, ordinal_next]
    omega

theorem succ_eq_next (d : Date) : Order.succ d = d.next := rfl

end Date
end Calendar

namespace Billing

open Calendar (Date monthLength)
open Fleet (BillingPeriod)
open Tilings (Tiles Within)

/-!
# Periods tile the contract

The periods of a contract run end to end from its first day through its last.
Each is stepped from the contract's start, so the clamped months need no case of
their own: where a period starts is increasing in its number, and it ends the
day before the next one.
-/

/-- The days of a period that are billed. -/
def Period.coveredDays (p : Period) : Nat := (p.finish.ordinal - p.start.ordinal).toNat + 1

section Tile

variable {start finish : Date} {billingPeriod : BillingPeriod}

/-- By this many rounds the loop is past the contract's end. -/
theorem finish_lt_periodStart {rounds : Nat} (many : (finish.month - start.month + 1).toNat ≤ rounds) :
    finish < periodStart start billingPeriod rounds := by
  apply Date.lt_of_month_lt
  have month : (periodStart start billingPeriod rounds).month =
      start.month + (rounds * months billingPeriod : Nat) := rfl
  have least : rounds ≤ rounds * months billingPeriod := Nat.le_mul_of_pos_right rounds (months_pos billingPeriod)
  omega

/-- The loop goes some rounds and returns at the first period past the end. -/
theorem periodsFrom_rounds {fuel index : Nat} (enough : finish < periodStart start billingPeriod (index + fuel)) :
    ∃ rounds, finish < periodStart start billingPeriod (index + rounds) ∧
      (∀ k < rounds, periodStart start billingPeriod (index + k) ≤ finish) ∧
      periodsFrom start finish billingPeriod fuel index =
        (List.range' index rounds).map (periodAt start finish billingPeriod) := by
  induction fuel generalizing index with
  | zero => exact ⟨0, enough, fun k before => absurd before (Nat.not_lt_zero k), rfl⟩
  | succ fuel ih =>
      unfold periodsFrom
      by_cases past : finish < periodStart start billingPeriod index
      · rw [if_pos past]
        exact ⟨0, past, fun k before => absurd before (Nat.not_lt_zero k), rfl⟩
      · rw [if_neg past]
        have shift (k : Nat) : index + 1 + k = index + (k + 1) := by omega
        rw [← shift] at enough
        rcases ih enough with ⟨rounds, stops, within, same⟩
        refine ⟨rounds + 1, ?_, ?_, ?_⟩
        · rw [← shift]
          exact stops
        · intro k before
          cases k with
          | zero => exact not_lt.mp past
          | succ k =>
              rw [← shift]
              exact within k (by omega)
        · rw [same]
          rfl

/-- From a period that is not past the end, the loop lays tiles through the end. -/
theorem periodsFrom_tile {fuel index : Nat} (enough : finish < periodStart start billingPeriod (index + fuel))
    (within : periodStart start billingPeriod index ≤ finish) :
    Tiles finish (periodStart start billingPeriod index)
      ((periodsFrom start finish billingPeriod fuel index).map (fun p => (p.start, p.finish))) := by
  induction fuel generalizing index with
  | zero => exact absurd within (not_le.mpr enough)
  | succ fuel ih =>
      unfold periodsFrom
      rw [if_neg (not_lt.mpr within), List.map_cons]
      have ordered : periodStart start billingPeriod index ≤ (periodAt start finish billingPeriod index).finish :=
        le_min (periodAt start finish billingPeriod index).ordered within
      refine ⟨rfl, ordered, ?_⟩
      have shift : index + 1 + fuel = index + (fuel + 1) := by omega
      rw [← shift] at enough
      by_cases past : finish < periodStart start billingPeriod (index + 1)
      · -- the last period, cut or not
        have none : periodsFrom start finish billingPeriod fuel (index + 1) = [] := by
          cases fuel with
          | zero => rfl
          | succ fuel =>
              unfold periodsFrom
              exact if_pos past
        have before : finish ≤ (periodStart start billingPeriod (index + 1)).previous := by
          rw [Date.le_iff, Date.ordinal_previous]
          rw [Date.lt_iff] at past
          omega
        have ends : (periodAt start finish billingPeriod index).finish = finish := min_eq_right before
        rw [none, ends]
        rfl
      · have next := not_lt.mp past
        have before : (periodStart start billingPeriod (index + 1)).previous ≤ finish := by
          rw [Date.le_iff, Date.ordinal_previous]
          rw [Date.le_iff] at next
          omega
        have ends : (periodAt start finish billingPeriod index).finish =
            (periodStart start billingPeriod (index + 1)).previous := min_eq_left before
        have after := ih enough next
        rw [ends, Date.succ_eq_next, Date.next_previous]
        exact after

theorem periods_tile (within : start ≤ finish) (billingPeriod : BillingPeriod) :
    Tiles finish start ((periods start finish billingPeriod).map (fun p => (p.start, p.finish))) := by
  have first : periodStart start billingPeriod 0 = start := by
    unfold periodStart
    rw [Nat.zero_mul, Date.addMonths_zero]
  have enough : finish < periodStart start billingPeriod (0 + (finish.month - start.month + 1).toNat) :=
    finish_lt_periodStart (by omega)
  rw [← first] at within
  have tiled := periodsFrom_tile enough within
  rw [first] at tiled
  exact tiled

variable {p : Period}

/-- A period bills its whole length, or ends with the contract. -/
theorem covered_days (mem : p ∈ periods start finish billingPeriod) :
    p.coveredDays ≤ p.nominalDays ∧ (p.coveredDays < p.nominalDays -> p.finish = finish) := by
  have ordered := start_le_finish mem
  rcases mem_periods.mp mem with ⟨k, _, rfl⟩
  have nominal : (periodAt start finish billingPeriod k).finish ≤
      (periodAt start finish billingPeriod k).nominalEnd := min_le_left _ _
  unfold Period.coveredDays Period.nominalDays
  constructor
  · rw [Date.le_iff] at nominal
    omega
  · intro cut
    have shorter : (periodAt start finish billingPeriod k).finish ≠
        (periodAt start finish billingPeriod k).nominalEnd := by
      intro same
      rw [same] at cut
      exact absurd cut (lt_irrefl _)
    rcases min_choice (periodStart start billingPeriod (k + 1)).previous finish with whole | ends
    · exact absurd whole shorter
    · exact ends

theorem periods_apart (within : start ≤ finish) (billingPeriod : BillingPeriod) :
    (periods start finish billingPeriod).Pairwise (fun p q => p.finish < q.start) := by
  have disjoint := (periods_tile within billingPeriod).disjoint
  rw [List.pairwise_map] at disjoint
  exact disjoint

/-- A period that ends with the contract is the last one. -/
theorem getLast?_periods (within : start ≤ finish) (mem : p ∈ periods start finish billingPeriod)
    (ends : p.finish = finish) : (periods start finish billingPeriod).getLast? = some p := by
  have last := ((periods_tile within billingPeriod).last (List.mem_map_of_mem mem)).mp ends
  rw [List.getLast?_map, Option.map_eq_some_iff] at last
  rcases last with ⟨q, final, same⟩
  rw [Prod.mk.injEq] at same
  rw [final, period_of_start (List.mem_of_getLast? final) mem same.1]

end Tile

/-- The days start through finish, divided into periods in order. -/
structure Partition (start finish : Date) (periods : List Period) : Prop where
  nonempty : ∀ p ∈ periods, p.start ≤ p.finish
  contiguous : periods.IsChain (fun p q => q.start = p.finish.next)
  disjoint : periods.Pairwise (fun p q => p.finish < q.start)
  covers : ∀ day, (start ≤ day ∧ day ≤ finish) ↔ ∃ p ∈ periods, p.start ≤ day ∧ day ≤ p.finish
  once : ∀ p ∈ periods, ∀ q ∈ periods, ∀ day, (p.start ≤ day ∧ day ≤ p.finish) ->
    (q.start ≤ day ∧ day ≤ q.finish) -> p = q
  lengths : ∀ p ∈ periods, p.coveredDays ≤ p.nominalDays ∧
    (p.coveredDays ≠ p.nominalDays -> periods.getLast? = some p ∧ p.finish = finish)

/-- The loop returns after some rounds, each of which yields the period stepped
from the start by its number, and what it yields divides the contract's days. -/
theorem periods_partition (start finish : Date) (billingPeriod : BillingPeriod) (within : start ≤ finish) :
    (∃ rounds, finish < periodStart start billingPeriod rounds ∧
      (∀ k < rounds, periodStart start billingPeriod k ≤ finish) ∧
      periods start finish billingPeriod = (List.range rounds).map (periodAt start finish billingPeriod)) ∧
    Partition start finish (periods start finish billingPeriod) := by
  have tiled := periods_tile within billingPeriod
  constructor
  · have enough : finish < periodStart start billingPeriod (0 + (finish.month - start.month + 1).toNat) :=
      finish_lt_periodStart (by omega)
    rcases periodsFrom_rounds enough with ⟨rounds, stops, before, same⟩
    simp only [Nat.zero_add, ← List.range_eq_range'] at stops before same
    exact ⟨rounds, stops, before, same⟩
  · constructor
    · intro p mem
      exact start_le_finish mem
    · have contiguous := tiled.contiguous
      rw [List.isChain_map] at contiguous
      exact contiguous
    · exact periods_apart within billingPeriod
    · intro day
      rw [← tiled.exists_within day]
      simp only [List.mem_map, exists_exists_and_eq_and, Within]
    · intro p mem q mem' day here here'
      exact period_unique mem mem' here here'
    · intro p mem
      rcases covered_days mem with ⟨bound, cut⟩
      refine ⟨bound, ?_⟩
      intro shorter
      have ends := cut (lt_of_le_of_ne bound shorter)
      exact ⟨getLast?_periods within mem ends, ends⟩

/-- Quarters from the last day of November, cut in the fourth. -/
theorem periods_partition_clamped :
    (∃ rounds, (⟨24298, 8, by decide⟩ : Date) < periodStart ⟨24286, 29, by decide⟩ .quarterly rounds ∧
      (∀ k < rounds, periodStart ⟨24286, 29, by decide⟩ .quarterly k ≤ ⟨24298, 8, by decide⟩) ∧
      periods ⟨24286, 29, by decide⟩ ⟨24298, 8, by decide⟩ .quarterly =
        (List.range rounds).map (periodAt ⟨24286, 29, by decide⟩ ⟨24298, 8, by decide⟩ .quarterly)) ∧
    Partition ⟨24286, 29, by decide⟩ ⟨24298, 8, by decide⟩
      (periods ⟨24286, 29, by decide⟩ ⟨24298, 8, by decide⟩ .quarterly) :=
  periods_partition ⟨24286, 29, by decide⟩ ⟨24298, 8, by decide⟩ .quarterly (by decide)

end Billing
end Shiftlush
