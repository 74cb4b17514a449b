import Shiftlush.Fleet.Records

namespace Shiftlush
namespace Billing

open Calendar (Date)
open Fleet (BillingPeriod)

/-!
# Billing periods

`apps.billing.periods`: periods stepped by whole months from the contract's
start, the last one cut at its end.
-/

/-- `MONTHS` -/
def months : BillingPeriod -> Nat
  | .monthly => 1
  | .quarterly => 3
  | .semiannual => 6
  | .annual => 12

theorem months_pos (billingPeriod : BillingPeriod) : 0 < months billingPeriod := by
  cases billingPeriod <;> decide

structure Period where
  start : Date
  /-- The last day billed: "the nominal end, or the contract's end if sooner". -/
  finish : Date
  nominalEnd : Date
  months : Nat
  ordered : start ≤ nominalEnd
  deriving DecidableEq

/-- `nominal_days` -/
def Period.nominalDays (p : Period) : Nat := (p.nominalEnd.ordinal - p.start.ordinal).toNat + 1

/-- `overlap_days`: "how many days two inclusive date ranges share". -/
def overlapDays (first second : Date × Date) : Nat :=
  ((min first.2 second.2).ordinal - (max first.1 second.1).ordinal + 1).toNat

section Periods

variable (start finish : Date) (billingPeriod : BillingPeriod)

/-- Where a period starts. -/
def periodStart (index : Nat) : Date := start.addMonths (index * months billingPeriod)

theorem periodStart_strictMono : StrictMono (periodStart start billingPeriod) := by
  intro index index' before
  apply start.addMonths_strictMono
  exact Nat.mul_lt_mul_of_pos_right before (months_pos billingPeriod)

/-- A period ends the day before the next one starts, or with the contract. -/
def periodAt (index : Nat) : Period where
  start := periodStart start billingPeriod index
  finish := min (periodStart start billingPeriod (index + 1)).previous finish
  nominalEnd := (periodStart start billingPeriod (index + 1)).previous
  months := months billingPeriod
  ordered := by
    have before := periodStart_strictMono start billingPeriod (Nat.lt_add_one index)
    rw [Calendar.Date.lt_iff] at before
    rw [Calendar.Date.le_iff, Calendar.Date.ordinal_previous]
    omega

/-- The loop of `periods`, from a period on. -/
def periodsFrom : Nat -> Nat -> List Period
  | 0, _ => []
  | fuel + 1, index =>
      if finish < periodStart start billingPeriod index then []
      else periodAt start finish billingPeriod index :: periodsFrom fuel (index + 1)

/-- `periods`.  A period starts a month after the one before at the least, so the
loop ends within the months of the contract. -/
def periods : List Period :=
  periodsFrom start finish billingPeriod (finish.month - start.month + 1).toNat 0

variable {start finish billingPeriod}

theorem mem_periodsFrom {p : Period} {fuel index : Nat} :
    p ∈ periodsFrom start finish billingPeriod fuel index ↔
      ∃ k, index ≤ k ∧ k < index + fuel ∧ periodStart start billingPeriod k ≤ finish ∧
        p = periodAt start finish billingPeriod k := by
  induction fuel generalizing index with
  | zero =>
      constructor
      · intro mem
        cases mem
      · rintro ⟨k, low, high, _⟩
        omega
  | succ fuel ih =>
      unfold periodsFrom
      split
      · rename_i past
        constructor
        · intro mem
          cases mem
        · rintro ⟨k, low, _, within, _⟩
          have first := (periodStart_strictMono start billingPeriod).monotone low
          exact absurd (lt_of_lt_of_le past first) (not_lt.mpr within)
      · rename_i within
        rw [List.mem_cons, ih]
        constructor
        · rintro (rfl | ⟨k, low, high, rest⟩)
          · exact ⟨index, Nat.le_refl _, by omega, not_lt.mp within, rfl⟩
          · exact ⟨k, by omega, by omega, rest⟩
        · rintro ⟨k, low, high, before, rfl⟩
          by_cases here : k = index
          · rw [here]
            exact Or.inl rfl
          · exact Or.inr ⟨k, by omega, by omega, before, rfl⟩

/-- Every period that starts by the contract's end, and no other. -/
theorem mem_periods {p : Period} : p ∈ periods start finish billingPeriod ↔
    ∃ k, periodStart start billingPeriod k ≤ finish ∧ p = periodAt start finish billingPeriod k := by
  unfold periods
  rw [mem_periodsFrom]
  constructor
  · rintro ⟨k, _, _, rest⟩
    exact ⟨k, rest⟩
  · rintro ⟨k, within, same⟩
    refine ⟨k, Nat.zero_le k, ?_, within, same⟩
    have later := Calendar.Date.month_le_of_ordinal_le (Calendar.Date.le_iff.mp within)
    have month : (periodStart start billingPeriod k).month = start.month + (k * months billingPeriod : Nat) := rfl
    have many : k ≤ k * months billingPeriod := Nat.le_mul_of_pos_right k (months_pos billingPeriod)
    omega

end Periods

end Billing
end Shiftlush
