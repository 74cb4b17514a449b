import Mathlib.Data.Int.Log
import Mathlib.Data.Rat.Floor
import Mathlib.Algebra.Order.Field.Power
import Mathlib.Algebra.Order.Ring.Rat
import Mathlib.Tactic.Positivity
import Mathlib.Tactic.Linarith
import Mathlib.Tactic.FieldSimp
import Mathlib.Tactic.Ring

namespace Shiftlush
namespace Decimals

/-!
# Decimal arithmetic of a fixed precision

Each operation is exact, and its result is rounded to so many significant
digits.  What is then brought to a number of places is rounded twice.  No
quotient lies close enough to a tie for the first rounding to reach it, so the
second gives what the exact quotient would.
-/

/-! ## Rounding to a whole number -/

/-- The whole number is nowhere further than a half. -/
def Nearest (round : ℚ -> ℤ) : Prop := ∀ x, |(round x : ℚ) - x| ≤ 1 / 2

/-- `ROUND_HALF_EVEN` -/
def halfEven (x : ℚ) : ℤ :=
  if 2 * Int.fract x < 1 then ⌊x⌋
  else if 1 < 2 * Int.fract x then ⌊x⌋ + 1
  else if ⌊x⌋ % 2 = 0 then ⌊x⌋ else ⌊x⌋ + 1

/-- `ROUND_HALF_UP`: halves go away from zero. -/
def halfUp (x : ℚ) : ℤ := if 0 ≤ x then ⌊x + 1 / 2⌋ else -⌊-x + 1 / 2⌋

theorem nearest_halfEven : Nearest halfEven := by
  intro x
  have split := Int.floor_add_fract x
  have low := Int.fract_nonneg x
  have high := Int.fract_lt_one x
  unfold halfEven
  rw [abs_le]
  split_ifs
  all_goals
    push_cast
    constructor <;> linarith

theorem nearest_halfUp : Nearest halfUp := by
  intro x
  unfold halfUp
  rw [abs_le]
  split_ifs
  · have low := Int.floor_le (x + 1 / 2)
    have high := Int.lt_floor_add_one (x + 1 / 2)
    constructor <;> linarith
  · have low := Int.floor_le (-x + 1 / 2)
    have high := Int.lt_floor_add_one (-x + 1 / 2)
    push_cast
    constructor <;> linarith

section Nearest

variable {round : ℚ -> ℤ} {x y : ℚ}

/-- Within a half there is no choice. -/
theorem Nearest.eq_of_lt (near : Nearest round) {v : ℤ} (close : |x - v| < 1 / 2) : round x = v := by
  have far := abs_sub_le (round x : ℚ) x v
  have bound : |((round x - v : ℤ) : ℚ)| < 1 := by
    push_cast
    linarith [near x]
  have whole : |round x - v| < 1 := by exact_mod_cast bound
  exact sub_eq_zero.mp (Int.abs_lt_one_iff.mp whole)

theorem Nearest.intCast (near : Nearest round) (n : ℤ) : round n = n := by
  apply near.eq_of_lt
  rw [sub_self, abs_zero]
  norm_num

/-- What is closer to a quotient than half the inverse of its denominator is rounded as
the quotient is, unless the quotient is a tie. -/
theorem Nearest.twice (near : Nearest round) {n : ℤ} {d : ℕ} (pos : 0 < d) (close : |y - n / d| < 1 / (2 * d))
    (tie : |(n / d : ℚ) - round (n / d)| = 1 / 2 -> y = n / d) : round y = round (n / d) := by
  have bound := near (n / d)
  rw [abs_sub_comm] at bound
  rcases lt_or_eq_of_le bound with inside | half
  · apply near.eq_of_lt
    have dpos : (0 : ℚ) < d := Nat.cast_pos.mpr pos
    generalize round (n / d) = v at inside ⊢
    -- the distance is a whole number of halves of the inverse
    have scaled : |(n / d : ℚ) - v| * (2 * d) = |((2 * n - 2 * d * v : ℤ) : ℚ)| := by
      rw [← abs_of_pos (mul_pos two_pos dpos), ← abs_mul]
      congr 1
      push_cast
      field_simp
    have less : |((2 * n - 2 * d * v : ℤ) : ℚ)| < d := by
      rw [← scaled]
      calc |(n / d : ℚ) - v| * (2 * d) < 1 / 2 * (2 * d) := by gcongr
        _ = d := by ring
    have whole : |2 * n - 2 * d * v| + 1 ≤ d := by exact_mod_cast less
    have apart : |(n / d : ℚ) - v| ≤ 1 / 2 - 1 / (2 * d) := by
      rw [← mul_le_mul_iff_left₀ (mul_pos two_pos dpos), scaled]
      have cast : (|((2 * n - 2 * d * v : ℤ) : ℚ)| + 1) ≤ d := by exact_mod_cast whole
      calc |((2 * n - 2 * d * v : ℤ) : ℚ)| ≤ d - 1 := by linarith
        _ = (1 / 2 - 1 / (2 * d)) * (2 * d) := by field_simp
    have triangle := abs_sub_le y (n / d : ℚ) v
    linarith
  · rw [tie half]

end Nearest

/-! ## Significant digits -/

variable {p : ℕ} {x : ℚ}

/-- The unit of the last of `p` significant digits. -/
def quantum (p : ℕ) (x : ℚ) : ℚ := 10 ^ (Int.log 10 |x| + 1 - p)

/-- The value of `p` digits that an exact result is rounded to. -/
def fix (p : ℕ) (x : ℚ) : ℚ := halfEven (x / quantum p x) * quantum p x

/-- `quantize`, which is refused where the result has more digits than the precision. -/
def quantize (p places : ℕ) (x : ℚ) : Option ℚ :=
  let units := halfUp (x * 10 ^ places)
  if units.natAbs < 10 ^ p then some (units / 10 ^ places) else none

theorem quantum_pos (p : ℕ) (x : ℚ) : 0 < quantum p x := zpow_pos (by norm_num) _

theorem fix_zero : fix p 0 = 0 := by
  unfold fix
  rw [zero_div, show halfEven 0 = 0 from nearest_halfEven.intCast 0, Int.cast_zero, zero_mul]

/-- Rounding moves a value by less than its last digit is worth. -/
theorem abs_fix_sub_le (p : ℕ) (x : ℚ) : |fix p x - x| ≤ |x| * 10 ^ (1 - p : ℤ) / 2 := by
  rcases eq_or_ne x 0 with rfl | nonzero
  · rw [fix_zero]
    norm_num
  · have pos := quantum_pos p x
    have scaled : fix p x - x = (halfEven (x / quantum p x) - x / quantum p x) * quantum p x := by
      unfold fix
      rw [sub_mul, div_mul_cancel₀ x pos.ne']
    have least : (10 : ℚ) ^ Int.log 10 |x| ≤ |x| := by
      exact_mod_cast Int.zpow_log_le_self (b := 10) (by norm_num) (abs_pos.mpr nonzero)
    have unit : quantum p x = 10 ^ Int.log 10 |x| * 10 ^ (1 - p : ℤ) := by
      rw [← zpow_add₀ (by norm_num), ← add_sub_assoc]
      rfl
    calc |fix p x - x| = |halfEven (x / quantum p x) - x / quantum p x| * quantum p x := by
          rw [scaled, abs_mul, abs_of_pos pos]
      _ ≤ 1 / 2 * quantum p x := by
          gcongr
          exact nearest_halfEven _
      _ = 10 ^ Int.log 10 |x| * 10 ^ (1 - p : ℤ) / 2 := by
          rw [unit]
          ring
      _ ≤ |x| * 10 ^ (1 - p : ℤ) / 2 := by gcongr

/-- A value of `p` digits is not moved. -/
theorem fix_exact {n e : ℤ} (small : n.natAbs < 10 ^ p) : fix p (n * 10 ^ e) = n * 10 ^ e := by
  rcases eq_or_ne n 0 with rfl | nonzero
  · rw [Int.cast_zero, zero_mul, fix_zero]
  · have ten : (10 : ℚ) ≠ 0 := by norm_num
    have size : |(n * 10 ^ e : ℚ)| = |(n : ℚ)| * 10 ^ e := by
      rw [abs_mul, abs_of_pos (zpow_pos (by norm_num : (0 : ℚ) < 10) e)]
    have positive : 0 < |(n * 10 ^ e : ℚ)| := abs_pos.mpr (mul_ne_zero (by exact_mod_cast nonzero) (zpow_ne_zero e ten))
    -- the last digit is worth no more than the exponent says
    have within : Int.log 10 |(n * 10 ^ e : ℚ)| + 1 - p ≤ e := by
      have least : ((10 : ℕ) : ℚ) ^ Int.log 10 |(n * 10 ^ e : ℚ)| ≤ |(n * 10 ^ e : ℚ)| :=
        Int.zpow_log_le_self (by norm_num) positive
      have most : |(n * 10 ^ e : ℚ)| < ((10 : ℕ) : ℚ) ^ (p + e : ℤ) := by
        rw [size, Nat.cast_ofNat, zpow_add₀ ten, zpow_natCast]
        have cast : |(n : ℚ)| < 10 ^ p := by
          rw [← Int.cast_abs, Int.abs_eq_natAbs]
          exact_mod_cast small
        gcongr
      have exponents := (zpow_lt_zpow_iff_right₀ (by norm_num : (1 : ℚ) < ((10 : ℕ) : ℚ))).mp (least.trans_lt most)
      omega
    have whole : (n * 10 ^ e : ℚ) / quantum p (n * 10 ^ e) =
        ((n * 10 ^ (e - (Int.log 10 |(n * 10 ^ e : ℚ)| + 1 - p)).toNat : ℤ) : ℚ) := by
      push_cast
      rw [← zpow_natCast, Int.toNat_of_nonneg (by omega), zpow_sub₀ ten]
      exact mul_div_assoc _ _ _
    unfold fix
    rw [whole, nearest_halfEven.intCast, ← whole, div_mul_cancel₀ _ (quantum_pos p _).ne']

/-! ## Values of some places -/

/-- So many units of the last place. -/
def ofUnits (places : ℕ) (units : ℤ) : ℚ := units / 10 ^ places

theorem fix_ofUnits {places : ℕ} {units : ℤ} (small : units.natAbs < 10 ^ p) :
    fix p (ofUnits places units) = ofUnits places units := by
  have same : ofUnits places units = units * 10 ^ (-places : ℤ) := by
    unfold ofUnits
    rw [zpow_neg, zpow_natCast, div_eq_mul_inv]
  rw [same, fix_exact small]

theorem ofUnits_mul (places places' : ℕ) (units units' : ℤ) :
    ofUnits places units * ofUnits places' units' = ofUnits (places + places') (units * units') := by
  unfold ofUnits
  rw [pow_add]
  push_cast
  exact div_mul_div_comm _ _ _ _

theorem ofUnits_add (places : ℕ) (units units' : ℤ) :
    ofUnits places units + ofUnits places units' = ofUnits places (units + units') := by
  unfold ofUnits
  push_cast
  exact (add_div _ _ _).symm

theorem ofUnits_zero_places (units : ℤ) : ofUnits 0 units = units := by
  unfold ofUnits
  rw [pow_zero, div_one]

/-- The sum in one precision, from the left, is the exact sum of the units. -/
theorem foldl_fix_add {places : ℕ} (amounts : List ℤ) (start : ℤ)
    (small : start.natAbs + (amounts.map Int.natAbs).sum < 10 ^ p) :
    (amounts.map (ofUnits places)).foldl (fun sum amount => fix p (sum + amount)) (ofUnits places start) =
      ofUnits places (start + amounts.sum) := by
  induction amounts generalizing start with
  | nil =>
      rw [List.sum_nil, add_zero]
      rfl
  | cons amount amounts ih =>
      have first := Int.natAbs_add_le start amount
      rw [List.map_cons, List.sum_cons] at small
      rw [List.map_cons, List.foldl_cons, ofUnits_add, fix_ofUnits (by omega), ih _ (by omega), List.sum_cons,
        add_assoc]

/-- **Rounding a quotient twice** gives what rounding it once does, where its numerator
has fewer digits than the precision. -/
theorem quantize_fix {places d : ℕ} {n : ℤ} (pos : 0 < d) (few : n.natAbs < 10 ^ (p - 1)) (digits : 0 < p) :
    quantize p places (fix p (n / d / 10 ^ places)) = some (ofUnits places (halfUp (n / d))) := by
  have dpos : (0 : ℚ) < d := Nat.cast_pos.mpr pos
  have unit : (0 : ℚ) < 10 ^ places := by positivity
  have more : 10 ^ p = 10 * 10 ^ (p - 1) := by rw [← Nat.pow_succ', Nat.succ_eq_add_one, Nat.sub_add_cancel digits]
  have cast : |(n : ℚ)| < 10 ^ (p - 1) := by
    rw [← Int.cast_abs, Int.abs_eq_natAbs]
    exact_mod_cast few
  have quotient : |(n / d : ℚ)| ≤ |(n : ℚ)| := by
    rw [abs_div, abs_of_pos dpos]
    exact div_le_self (abs_nonneg _) (by exact_mod_cast pos)
  have same : halfUp (fix p (n / d / 10 ^ places) * 10 ^ places) = halfUp (n / d) := by
    apply nearest_halfUp.twice pos
    · have error := abs_fix_sub_le p (n / d / 10 ^ places : ℚ)
      have tenth : (10 : ℚ) ^ (1 - p : ℤ) = 1 / 10 ^ (p - 1) := by
        rw [← neg_sub, zpow_neg, one_div, ← zpow_natCast]
        congr 2
        omega
      have bound : |(n : ℚ)| / 10 ^ (p - 1) < 1 := by
        rw [div_lt_one (by positivity)]
        exact cast
      calc |fix p (n / d / 10 ^ places) * 10 ^ places - n / d|
          = |fix p (n / d / 10 ^ places) - n / d / 10 ^ places| * 10 ^ places := by
            rw [← abs_of_pos unit, ← abs_mul, abs_of_pos unit, sub_mul, div_mul_cancel₀ _ unit.ne']
        _ ≤ |(n / d / 10 ^ places : ℚ)| * 10 ^ (1 - p : ℤ) / 2 * 10 ^ places := by gcongr
        _ = |(n : ℚ)| / 10 ^ (p - 1) / (2 * d) := by
            rw [abs_div, abs_div, abs_of_pos dpos, abs_of_pos unit, tenth]
            field_simp
        _ < 1 / (2 * d) := by gcongr
    · intro tie
      -- a tie has one place more, and one digit more than the numerator at most
      have half : ∃ w : ℤ, (n / d : ℚ) = w / 2 := by
        rcases (abs_eq (by norm_num)).mp tie with above | below
        · refine ⟨2 * halfUp (n / d) + 1, ?_⟩
          push_cast
          linarith
        · refine ⟨2 * halfUp (n / d) - 1, ?_⟩
          push_cast
          linarith
      rcases half with ⟨w, half⟩
      have exact_ : (n / d / 10 ^ places : ℚ) = ofUnits (places + 1) (5 * w) := by
        unfold ofUnits
        rw [half, pow_succ]
        push_cast
        field_simp
        ring
      have small : (5 * w).natAbs < 10 ^ p := by
        have size : ((5 * w).natAbs : ℚ) = 10 * |(n / d : ℚ)| := by
          rw [Nat.cast_natAbs, half, Int.cast_abs, abs_div, abs_two]
          push_cast
          rw [abs_mul, abs_of_pos (by norm_num : (0 : ℚ) < 5)]
          ring
        have less : ((5 * w).natAbs : ℚ) < 10 * 10 ^ (p - 1) := by
          rw [size]
          linarith
        rw [more]
        exact_mod_cast less
      rw [exact_, fix_ofUnits small, ← exact_, div_mul_cancel₀ _ unit.ne']
  have digits' : (halfUp (n / d)).natAbs < 10 ^ p := by
    have near := nearest_halfUp (n / d)
    have triangle := abs_sub_abs_le_abs_sub (halfUp (n / d) : ℚ) (n / d)
    have bound : ((halfUp (n / d)).natAbs : ℚ) < n.natAbs + 1 := by
      rw [Nat.cast_natAbs, Nat.cast_natAbs, Int.cast_abs, Int.cast_abs]
      linarith
    have whole : (halfUp (n / d)).natAbs < n.natAbs + 1 := by exact_mod_cast bound
    omega
  unfold quantize ofUnits
  dsimp only
  rw [same, if_pos digits']

end Decimals
end Shiftlush
