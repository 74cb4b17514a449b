import Shiftlush.Decimals
import Shiftlush.Billing.Records

namespace Shiftlush
namespace Billing

open Decimals (fix quantize ofUnits halfUp fix_ofUnits ofUnits_mul ofUnits_zero_places quantize_fix)

/-!
# The money arithmetic in decimals

`apps.billing.money` as it is carried out, in decimals of 28 digits.  For what the
columns hold, it comes to the whole cents that drafts are kept in.
-/

/-! ## Columns -/

/-- A number of so many digits, in units of its last place. -/
structure Column (digits : Nat) where
  units : Int
  fits : units.natAbs < 10 ^ digits

/-- `PositiveSmallIntegerField` -/
abbrev SmallInteger := Fin (2 ^ 15)

/-- The fraction that a fee line stores. -/
structure Fraction where
  months : SmallInteger
  coveredDays : SmallInteger
  periodDays : SmallInteger
  positive : 0 < periodDays.val

def Fraction.proration (f : Fraction) : Proration := ⟨f.months, f.coveredDays, f.periodDays, f.positive⟩

/-- The positions and the amounts of a draft's lines.  A line is added after the last,
so that no two share a position. -/
structure Sheet where
  lines : List (SmallInteger × Column 14)
  distinct : (lines.map Prod.fst).Nodup

def Sheet.amounts (sheet : Sheet) : List Cents := sheet.lines.map (fun line => line.2.units)

/-! ## `apps.billing.money` -/

namespace Money

/-- Of the default context. -/
def precision : Nat := 28

def roundMoney (value : ℚ) : Option ℚ := quantize precision 2 value

def roundQuantity (value : ℚ) : Option ℚ := quantize precision 4 value

def proratedQuantity (months coveredDays periodDays : Nat) : Option ℚ :=
  if periodDays ≤ coveredDays then roundQuantity months
  else roundQuantity (fix precision (fix precision (months * coveredDays) / periodDays))

def lineAmount (quantity : ℚ) : Option ℚ -> Option ℚ
  | none => some 0
  | some unitPrice => roundMoney (fix precision (quantity * unitPrice))

def proratedAmount (unitPrice : Option ℚ) (months coveredDays periodDays : Nat) : Option ℚ :=
  match unitPrice with
  | none => some 0
  | some unitPrice => roundMoney (fix precision
      (fix precision (fix precision (unitPrice * months) * coveredDays) / periodDays))

def totals (amounts : List ℚ) (vatRate : ℚ) : Option (ℚ × ℚ × ℚ) := do
  let subtotal ← roundMoney (amounts.foldl (fun sum amount => fix precision (sum + amount)) 0)
  let vat ← roundMoney (fix precision (fix precision (subtotal * vatRate) / 100))
  return (subtotal, vat, fix precision (subtotal + vat))

end Money

/-! ## In whole units -/

/-- Rounded to some places once, from the exact value. -/
def roundedTo (places : Nat) (value : ℚ) : ℚ := ofUnits places (halfUp (value * 10 ^ places))

theorem halfUp_div (numerator : Int) {denominator : Nat} (positive : 0 < denominator) :
    halfUp (numerator / denominator) = roundHalfUp numerator denominator := by
  have positive' : (0 : ℚ) < denominator := Nat.cast_pos.mpr positive
  have floor (n : Int) : ⌊(n / denominator + 1 / 2 : ℚ)⌋ = (2 * n + denominator) / (2 * denominator) := by
    have same : (n / denominator + 1 / 2 : ℚ) = ((2 * n + denominator : Int) : ℚ) / ((2 * denominator : Nat) : ℚ) := by
      push_cast
      field_simp
    rw [same, Rat.floor_intCast_div_natCast, Nat.cast_mul, Nat.cast_two]
  have sign : (0 : ℚ) ≤ numerator / denominator ↔ 0 ≤ numerator := by
    rw [le_div_iff₀ positive', zero_mul]
    exact Int.cast_nonneg_iff
  unfold halfUp roundHalfUp
  dsimp only
  by_cases above : 0 ≤ numerator
  · have size : (numerator.natAbs : Int) = numerator := Int.natAbs_of_nonneg above
    rw [if_pos (sign.mpr above), if_pos above, floor]
    push_cast
    rw [← Int.natCast_natAbs, size]
  · have size : (numerator.natAbs : Int) = -numerator := by omega
    have negated : -(numerator / denominator : ℚ) = ((-numerator : Int) : ℚ) / denominator := by
      push_cast
      rw [neg_div]
    rw [if_neg (mt sign.mp above), if_neg above, negated, floor]
    push_cast
    rw [← Int.natCast_natAbs, size]

theorem roundedTo_div (places : Nat) (numerator : Int) {denominator : Nat} (positive : 0 < denominator) :
    roundedTo places (numerator / denominator / 10 ^ places) = ofUnits places (roundHalfUp numerator denominator) := by
  unfold roundedTo
  rw [div_mul_cancel₀ _ (by positivity), halfUp_div numerator positive]

theorem quantize_div (places : Nat) {numerator : Int} {denominator : Nat} (positive : 0 < denominator)
    (few : numerator.natAbs < 10 ^ 27) :
    quantize Money.precision places (fix Money.precision (numerator / denominator / 10 ^ places)) =
      some (ofUnits places (roundHalfUp numerator denominator)) := by
  rw [quantize_fix positive few (by decide), halfUp_div numerator positive]

theorem roundHalfUp_one (numerator : Int) : roundHalfUp numerator 1 = numerator := by
  unfold roundHalfUp
  dsimp only
  split_ifs <;> omega

theorem quantize_ofUnits (places : Nat) {units : Int} (few : units.natAbs < 10 ^ 27) :
    quantize Money.precision places (ofUnits places units) = some (ofUnits places units) := by
  have whole := @quantize_div places units 1 Nat.one_pos few
  rw [Nat.cast_one, div_one, roundHalfUp_one] at whole
  have same : fix Money.precision (ofUnits places units) = ofUnits places units := fix_ofUnits (lt_trans few (by decide))
  calc quantize Money.precision places (ofUnits places units)
      = quantize Money.precision places (fix Money.precision (ofUnits places units)) := by rw [same]
    _ = some (ofUnits places units) := whole

/-! ## The amounts of what is stored -/

theorem natAbs_mul_lt {a b : Int} {m n : Nat} (first : a.natAbs < m) (second : b.natAbs < n) :
    (a * b).natAbs < m * n := by
  rw [Int.natAbs_mul]
  exact Nat.mul_lt_mul'' first second

theorem natAbs_small (n : SmallInteger) : ((n.val : Nat) : Int).natAbs < 10 ^ 5 :=
  lt_trans n.isLt (by decide)

/-- There are not more lines than positions. -/
theorem Sheet.length_le (sheet : Sheet) : sheet.lines.length ≤ 2 ^ 15 := by
  have bound := List.Nodup.length_le_card sheet.distinct
  rw [List.length_map, Fintype.card_fin] at bound
  exact bound

theorem Sheet.sum_lt (sheet : Sheet) : (sheet.amounts.map Int.natAbs).sum < 10 ^ 20 := by
  have each : (sheet.amounts.map Int.natAbs).sum ≤ sheet.lines.length * 10 ^ 14 := by
    unfold Sheet.amounts
    rw [List.map_map]
    rw [← List.length_map (fun line : SmallInteger × Column 14 => (Int.natAbs ∘ fun line => line.2.units) line)]
    apply List.sum_le_card_nsmul
    intro size mem
    rcases List.mem_map.mp mem with ⟨line, _, rfl⟩
    exact line.2.fits.le
  have length := sheet.length_le
  omega

theorem natAbs_sum_le (amounts : List Int) : amounts.sum.natAbs ≤ (amounts.map Int.natAbs).sum := by
  induction amounts with
  | nil => exact le_rfl
  | cons amount amounts ih =>
      have first := Int.natAbs_add_le amount amounts.sum
      rw [List.sum_cons, List.map_cons, List.sum_cons]
      omega

theorem ofUnits_mul_natCast (places : Nat) (units : Int) (n : Nat) :
    ofUnits places units * n = ofUnits places (units * n) := by
  rw [← Int.cast_natCast, ← ofUnits_zero_places, ofUnits_mul]
  rfl

/-- `prorated_amount` comes to the amount in cents. -/
theorem Money.proratedAmount_eq (price : Column 12) (f : Fraction) :
    Money.proratedAmount (some (ofUnits 2 price.units)) f.months f.coveredDays f.periodDays =
      some (ofUnits 2 (Billing.proratedAmount f.proration (some price.units))) := by
  have first := natAbs_mul_lt price.fits (natAbs_small f.months)
  have second := natAbs_mul_lt first (natAbs_small f.coveredDays)
  unfold Money.proratedAmount Money.roundMoney
  dsimp only
  rw [ofUnits_mul_natCast, fix_ofUnits (lt_trans first (by decide)), ofUnits_mul_natCast,
    fix_ofUnits (lt_trans second (by decide))]
  have swap : ofUnits 2 (price.units * f.months * f.coveredDays) / f.periodDays =
      ((price.units * f.months * f.coveredDays : Int) : ℚ) / (f.periodDays : Nat) / 10 ^ 2 := div_right_comm _ _ _
  rw [swap, quantize_div 2 f.positive (lt_trans second (by decide))]
  rfl

/-- So does `prorated_quantity`. -/
theorem Money.proratedQuantity_eq (f : Fraction) : Money.proratedQuantity f.months f.coveredDays f.periodDays =
    some (ofUnits 4 (Billing.proratedQuantity f.proration)) := by
  have product := natAbs_mul_lt (natAbs_small f.months) (natAbs_small f.coveredDays)
  have step : ((quantityStep : Nat) : Int).natAbs < 10 ^ 5 := by decide
  unfold Money.proratedQuantity Money.roundQuantity Billing.proratedQuantity
  split
  · rename_i whole
    have months : ((f.months.val : Nat) : ℚ) = ofUnits 4 (f.months.val * quantityStep : Nat) := by
      unfold ofUnits quantityStep
      push_cast
      ring
    have few : ((f.months.val * quantityStep : Nat) : Int).natAbs < 10 ^ 27 := by
      rw [Nat.cast_mul]
      exact lt_trans (natAbs_mul_lt (natAbs_small f.months) step) (by decide)
    have whole' : f.proration.periodDays ≤ f.proration.coveredDays := whole
    rw [months, quantize_ofUnits 4 few, if_pos whole']
    rfl
  · rename_i cut
    have cut' : ¬ f.proration.periodDays ≤ f.proration.coveredDays := cut
    have exact_ : ((f.months.val : Nat) : ℚ) * (f.coveredDays.val : Nat) = ofUnits 0 (f.months * f.coveredDays) := by
      rw [ofUnits_zero_places]
      push_cast
      rfl
    have swap : ofUnits 0 (f.months * f.coveredDays) / f.periodDays =
        ((f.months * f.coveredDays * quantityStep : Int) : ℚ) / (f.periodDays : Nat) / 10 ^ 4 := by
      unfold ofUnits quantityStep
      push_cast
      ring
    rw [exact_, fix_ofUnits (lt_trans product (by decide)), swap,
      quantize_div 4 f.positive (lt_trans (natAbs_mul_lt product step) (by decide)), if_neg cut']
    rfl

/-- `line_amount` too. -/
theorem Money.lineAmount_eq (quantity price : Column 12) :
    Money.lineAmount (ofUnits 4 quantity.units) (some (ofUnits 2 price.units)) =
      some (ofUnits 2 (Billing.lineAmount quantity.units (some price.units))) := by
  have product := natAbs_mul_lt quantity.fits price.fits
  have swap : ofUnits 4 quantity.units * ofUnits 2 price.units =
      ((quantity.units * price.units : Int) : ℚ) / (quantityStep : Nat) / 10 ^ 2 := by
    rw [ofUnits_mul]
    unfold ofUnits quantityStep
    push_cast
    rw [div_div]
    norm_num
  unfold Money.lineAmount Money.roundMoney
  dsimp only
  rw [swap, quantize_div 2 (by decide) (lt_trans product (by decide))]
  rfl

theorem Money.totals_eq (sheet : Sheet) (vatRate : Column 5) :
    Money.totals (sheet.amounts.map (ofUnits 2)) (ofUnits 2 vatRate.units) =
      let sums := Shiftlush.totals sheet.amounts vatRate.units
      some (ofUnits 2 sums.1, ofUnits 2 sums.2.1, ofUnits 2 sums.2.2) := by
  have few := sheet.sum_lt
  have sum := lt_of_le_of_lt (natAbs_sum_le sheet.amounts) few
  have product := natAbs_mul_lt sum vatRate.fits
  have summed : (sheet.amounts.map (ofUnits 2)).foldl (fun sum amount => fix precision (sum + amount)) 0 =
      ofUnits 2 sheet.amounts.sum := by
    have folded := @Decimals.foldl_fix_add precision 2 sheet.amounts 0 (by
      rw [Int.natAbs_zero, zero_add]
      exact lt_trans few (by decide))
    have zero : ofUnits 2 0 = 0 := by
      unfold ofUnits
      rw [Int.cast_zero, zero_div]
    rw [zero, zero_add] at folded
    exact folded
  have swap : ofUnits 4 (sheet.amounts.sum * vatRate.units) / 100 =
      ((sheet.amounts.sum * vatRate.units : Int) : ℚ) / (10000 : Nat) / 10 ^ 2 := by
    unfold ofUnits
    push_cast
    norm_num
  have vat : (roundHalfUp (sheet.amounts.sum * vatRate.units) 10000).natAbs < 10 ^ 25 := by
    unfold roundHalfUp
    dsimp only
    split_ifs <;> omega
  unfold Money.totals Money.roundMoney
  rw [summed, quantize_ofUnits 2 (lt_trans sum (by decide)), Option.bind_eq_bind, Option.bind_some, ofUnits_mul,
    fix_ofUnits (lt_trans product (by decide)), swap, quantize_div 2 (by decide) (lt_trans product (by decide)),
    Option.bind_some, Decimals.ofUnits_add, fix_ofUnits]
  · rfl
  · have both := Int.natAbs_add_le sheet.amounts.sum (roundHalfUp (sheet.amounts.sum * vatRate.units) 10000)
    apply lt_of_le_of_lt both
    have bound : 10 ^ 20 + 10 ^ 25 < 10 ^ 28 := by decide
    exact lt_trans (add_lt_add sum vat) bound

/-! ## The law -/

/-- What the arithmetic makes of prices, fractions, lines and rates as they are stored. -/
structure Exact : Prop where
  prorated : ∀ (price : Column 12) (f : Fraction),
    Money.proratedAmount (some (ofUnits 2 price.units)) f.months f.coveredDays f.periodDays =
      some (roundedTo 2 (ofUnits 2 price.units * f.months * f.coveredDays / f.periodDays))
  /-- A period that is not cut. -/
  uncut : ∀ (price : Column 12) (f : Fraction), f.coveredDays = f.periodDays ->
    Money.proratedAmount (some (ofUnits 2 price.units)) f.months f.coveredDays f.periodDays =
      some (ofUnits 2 price.units * f.months)
  line : ∀ (quantity price : Column 12),
    Money.lineAmount (ofUnits 4 quantity.units) (some (ofUnits 2 price.units)) =
      some (roundedTo 2 (ofUnits 4 quantity.units * ofUnits 2 price.units))
  totals : ∀ (sheet : Sheet) (vatRate : Column 5),
    let subtotal := (sheet.amounts.map (ofUnits 2)).sum
    let vat := roundedTo 2 (subtotal * ofUnits 2 vatRate.units / 100)
    Money.totals (sheet.amounts.map (ofUnits 2)) (ofUnits 2 vatRate.units) = some (subtotal, vat, subtotal + vat)

theorem sum_ofUnits (places : Nat) (amounts : List Int) : (amounts.map (ofUnits places)).sum = ofUnits places amounts.sum := by
  induction amounts with
  | nil =>
      unfold ofUnits
      rw [List.map_nil, List.sum_nil, List.sum_nil, Int.cast_zero, zero_div]
  | cons amount amounts ih => rw [List.map_cons, List.sum_cons, List.sum_cons, ih, Decimals.ofUnits_add]

theorem proratedAmount_uncut {p : Proration} (uncut : p.coveredDays = p.periodDays) (unitPrice : Cents) :
    proratedAmount p (some unitPrice) = unitPrice * p.months := by
  have positive := p.positive
  have whole : (unitPrice * p.months * p.coveredDays : Int) = unitPrice * p.months * p.periodDays := by rw [uncut]
  have quotient : ((unitPrice * p.months * p.periodDays : Int) : ℚ) / (p.periodDays : Nat) =
      ((unitPrice * p.months : Int) : ℚ) := by
    push_cast
    exact mul_div_cancel_right₀ _ (by exact_mod_cast positive.ne')
  show roundHalfUp (unitPrice * p.months * p.coveredDays) p.periodDays = _
  rw [whole, ← halfUp_div _ positive, quotient, Decimals.nearest_halfUp.intCast]

/-- **Exact proration and totals.**  Although each step is carried out in 28 digits,
a fee, a line and the VAT are the exact values rounded to the cent once. -/
theorem amounts_exact : Exact := by
  constructor
  · intro price f
    have exact_ : ofUnits 2 price.units * f.months * f.coveredDays / f.periodDays =
        ((price.units * f.months * f.coveredDays : Int) : ℚ) / (f.periodDays : Nat) / 10 ^ 2 := by
      unfold ofUnits
      push_cast
      field_simp
    rw [Money.proratedAmount_eq, exact_, roundedTo_div 2 _ f.positive]
    rfl
  · intro price f uncut
    have same : f.proration.coveredDays = f.proration.periodDays := congrArg Fin.val uncut
    rw [Money.proratedAmount_eq, proratedAmount_uncut same, ofUnits_mul_natCast]
    rfl
  · intro quantity price
    have exact_ : ofUnits 4 quantity.units * ofUnits 2 price.units =
        ((quantity.units * price.units : Int) : ℚ) / (quantityStep : Nat) / 10 ^ 2 := by
      unfold ofUnits quantityStep
      push_cast
      ring
    rw [Money.lineAmount_eq, exact_, roundedTo_div 2 _ (by decide)]
    rfl
  · intro sheet vatRate
    have exact_ : ofUnits 2 sheet.amounts.sum * ofUnits 2 vatRate.units / 100 =
        ((sheet.amounts.sum * vatRate.units : Int) : ℚ) / (10000 : Nat) / 10 ^ 2 := by
      unfold ofUnits
      push_cast
      ring
    rw [Money.totals_eq, sum_ofUnits]
    dsimp only
    rw [exact_, roundedTo_div 2 _ (by decide), Decimals.ofUnits_add]
    rfl

end Billing
end Shiftlush
