import Mathlib.Algebra.Ring.Int.Defs
import Mathlib.Tactic.Common

namespace Shiftlush

/-!
# Money

Stored money is a whole number of cents: every amount column has two decimals.
A request's amount is a `Decimal` and may be anything Python's is, so it is
checked (`isMoney`) before it becomes cents.
-/

abbrev Cents := Int

/-- A Python `Decimal`: a signed coefficient and a power of ten, or not a number. -/
inductive Decimal where
  | finite (coefficient : Int) (exponent : Int)
  | infinity (negative : Bool)
  | nan
  deriving DecidableEq, Repr

namespace Decimal

def ofCents (cents : Cents) : Decimal := .finite cents (-2)

/-- The value in cents, when it is a whole number of them
(`amount == amount.quantize(_CENT)`). -/
def cents? : Decimal -> Option Cents
  | .finite coefficient exponent =>
      let shift := exponent + 2
      if 0 ≤ shift then some (coefficient * 10 ^ shift.toNat)
      else
        let unit : Int := 10 ^ (-shift).toNat
        if coefficient % unit = 0 then some (coefficient / unit) else none
  | .infinity _ => none
  | .nan => none

/-- `posting.is_money`: finite, above zero, to the cent. -/
def isMoney (amount : Decimal) : Bool :=
  match amount.cents? with
  | some cents => decide (0 < cents)
  | none => false

@[simp] theorem cents?_ofCents (cents : Cents) : (ofCents cents).cents? = some cents := by
  simp [ofCents, cents?]

theorem isMoney_iff {amount : Decimal} :
    amount.isMoney = true ↔ ∃ cents, amount.cents? = some cents ∧ 0 < cents := by
  unfold isMoney
  cases amount.cents? with
  | none => simp
  | some cents => simp

end Decimal

/-! ## The two roundings of `billing.money` -/

/-- `numerator / denominator` to a whole number, halves away from zero
(`ROUND_HALF_UP`). -/
def roundHalfUp (numerator : Int) (denominator : Nat) : Int :=
  let half := (2 * numerator.natAbs + denominator) / (2 * denominator)
  if 0 ≤ numerator then half else -half

/-- `money.totals`: subtotal, VAT and total.  The rate is in hundredths of a
percent, as its column keeps it. -/
def totals (amounts : List Cents) (vatRate : Int) : Cents × Cents × Cents :=
  let subtotal := amounts.sum
  let vat := roundHalfUp (subtotal * vatRate) 10000
  (subtotal, vat, subtotal + vat)

end Shiftlush
