import Shiftlush.Calendar
import Mathlib.Tactic.Common

namespace Shiftlush
namespace Numerals

/-!
# Numbers and dates as text

A count padded with zeros, an amount with a fixed number of places behind a decimal mark, a
date as day, month and year, and what a reader makes of such a text.
-/

/-! ## Digits -/

/-- The decimal digits, padded to a width. -/
def padded (width n : Nat) : List Char := (Nat.toDigits 10 n).leftpad width '0'

/-- What a text of digits stands for. -/
def readNat (text : List Char) : Option Nat :=
  if text ≠ [] ∧ text.all Char.isDigit = true then some (Nat.ofDigitChars 10 text 0) else none

theorem isDigit_toDigits (n : Nat) : (Nat.toDigits 10 n).all Char.isDigit = true := by
  rw [List.all_eq_true]
  intro c mem
  exact Nat.isDigit_of_mem_toDigits (by decide) (by decide) mem

theorem isDigit_padded (width n : Nat) : (padded width n).all Char.isDigit = true := by
  have zeros : (List.replicate (width - (Nat.toDigits 10 n).length) '0').all Char.isDigit = true := by
    rw [List.all_eq_true]
    intro c mem
    rw [List.eq_of_mem_replicate mem]
    rfl
  rw [padded, List.leftpad, List.all_append, zeros, isDigit_toDigits]
  rfl

theorem readNat_toDigits (n : Nat) : readNat (Nat.toDigits 10 n) = some n := by
  unfold readNat
  rw [if_pos ⟨Nat.toDigits_ne_nil, isDigit_toDigits n⟩, Nat.ofDigitChars_ten_toDigits]

theorem readNat_padded (width n : Nat) : readNat (padded width n) = some n := by
  have nonempty : padded width n ≠ [] := by
    simp [padded, List.leftpad, Nat.toDigits_ne_nil]
  unfold readNat
  rw [if_pos ⟨nonempty, isDigit_padded width n⟩, padded, List.leftpad, Nat.ofDigitChars_append,
    Nat.ofDigitChars_replicate_zero, Nat.mul_zero, Nat.ofDigitChars_ten_toDigits]

theorem length_padded {width n : Nat} (positive : 0 < width) (fits : n < 10 ^ width) :
    (padded width n).length = width := by
  have short := (Nat.length_toDigits_le_iff (by decide) positive).mpr fits
  rw [padded, List.leftpad, List.length_append, List.length_replicate]
  omega

/-! ## Amounts -/

/-- An amount in units of its last place: the sign, the whole, the mark, the places. -/
def fixedText (mark : Char) (places : Nat) (units : Int) : List Char :=
  (if units < 0 then ['-'] else []) ++
    (Nat.toDigits 10 (units.natAbs / 10 ^ places) ++ mark :: padded places (units.natAbs % 10 ^ places))

def readUnsigned (mark : Char) (places : Nat) (text : List Char) : Option Nat := do
  let whole ← readNat (text.takeWhile (· ≠ mark))
  let part ← readNat ((text.dropWhile (· ≠ mark)).drop 1)
  return 10 ^ places * whole + part

/-- What an amount stands for. -/
def readFixed (mark : Char) (places : Nat) : List Char -> Option Int
  | '-' :: rest => (readUnsigned mark places rest).map (fun n : Nat => -(n : Int))
  | rest => (readUnsigned mark places rest).map Int.ofNat

section Amounts

variable {mark : Char}

theorem ne_mark_of_isDigit (other : mark.isDigit = false) {c : Char} (digit : c.isDigit = true) : c ≠ mark := by
  intro same
  rw [same, other] at digit
  cases digit

theorem takeWhile_digits (other : mark.isDigit = false) {digits : List Char} (all : digits.all Char.isDigit = true)
    (rest : List Char) : (digits ++ mark :: rest).takeWhile (· ≠ mark) = digits := by
  have apart : ∀ c ∈ digits, decide (c ≠ mark) = true := by
    intro c mem
    exact decide_eq_true (ne_mark_of_isDigit other (List.all_eq_true.mp all c mem))
  rw [List.takeWhile_append_of_pos apart]
  simp

theorem dropWhile_digits (other : mark.isDigit = false) {digits : List Char} (all : digits.all Char.isDigit = true)
    (rest : List Char) : (digits ++ mark :: rest).dropWhile (· ≠ mark) = mark :: rest := by
  have apart : ∀ c ∈ digits, decide (c ≠ mark) = true := by
    intro c mem
    exact decide_eq_true (ne_mark_of_isDigit other (List.all_eq_true.mp all c mem))
  rw [List.dropWhile_append_of_pos apart]
  simp

theorem readUnsigned_text (other : mark.isDigit = false) (places n : Nat) :
    readUnsigned mark places (Nat.toDigits 10 (n / 10 ^ places) ++ mark :: padded places (n % 10 ^ places)) = some n := by
  unfold readUnsigned
  rw [takeWhile_digits other (isDigit_toDigits _), dropWhile_digits other (isDigit_toDigits _), readNat_toDigits,
    List.drop_one, List.tail_cons, readNat_padded]
  exact congrArg some (Nat.div_add_mod n (10 ^ places))

/-- An amount is read back as it was. -/
theorem readFixed_text (other : mark.isDigit = false) (places : Nat) (units : Int) :
    readFixed mark places (fixedText mark places units) = some units := by
  have whole := readUnsigned_text other places units.natAbs
  unfold fixedText
  by_cases negative : units < 0
  · rw [if_pos negative, List.singleton_append, readFixed, whole, Option.map_some]
    exact congrArg some (by omega)
  · rw [if_neg negative, List.nil_append]
    cases first : Nat.toDigits 10 (units.natAbs / 10 ^ places) with
    | nil => exact absurd first Nat.toDigits_ne_nil
    | cons c digits =>
        have digit : c.isDigit = true := by
          have all := isDigit_toDigits (units.natAbs / 10 ^ places)
          rw [first, List.all_cons, Bool.and_eq_true] at all
          exact all.1
        have notMinus : c ≠ '-' := by
          rintro rfl
          cases digit
        rw [first] at whole
        rw [List.cons_append] at whole ⊢
        rw [readFixed, whole, Option.map_some]
        · exact congrArg some (Int.natAbs_of_nonneg (not_lt.mp negative))
        · intro rest same
          exact notMinus (List.cons.inj same).1

end Amounts

/-! ## Dates -/

/-- `strftime("%d.%m.%Y")` -/
def dateText (d : Calendar.Date) : List Char :=
  padded 2 (d.day + 1) ++ '.' :: (padded 2 ((d.month % 12).toNat + 1) ++ '.' :: padded 4 (d.month / 12).toNat)

def dateOf (year month day : Nat) : Option Calendar.Date :=
  if valid : (1 ≤ month ∧ month ≤ 12) ∧ 1 ≤ day ∧ day - 1 < Calendar.monthLength (12 * year + (month - 1 : Nat)) then
    some ⟨12 * year + (month - 1 : Nat), day - 1, valid.2.2⟩
  else none

/-- What a date stands for. -/
def readDate (text : List Char) : Option Calendar.Date := do
  let day ← readNat (text.take 2)
  let month ← readNat ((text.drop 3).take 2)
  let year ← readNat (text.drop 6)
  dateOf year month day

theorem day_lt_hundred (d : Calendar.Date) : d.day + 1 < 10 ^ 2 := by
  have valid := d.valid
  have longest : Calendar.monthLength d.month ≤ 31 := by
    unfold Calendar.monthLength Calendar.daysOf
    split_ifs <;> omega
  omega

theorem dateOf_parts {d : Calendar.Date} (inYears : 0 ≤ d.month) :
    dateOf (d.month / 12).toNat ((d.month % 12).toNat + 1) (d.day + 1) = some d := by
  have month : (12 * ((d.month / 12).toNat : Int) + (((d.month % 12).toNat + 1 - 1 : Nat) : Int)) = d.month := by
    omega
  unfold dateOf
  rcases d with ⟨m, n, valid⟩
  dsimp only at month inYears ⊢
  rw [dif_pos ⟨by omega, by omega, by rw [month]; exact valid⟩]
  simp only [Option.some.injEq, Calendar.Date.mk.injEq]
  exact ⟨month, Nat.add_sub_cancel n 1⟩

/-- A date of the years that have one is read back as it was. -/
theorem readDate_text {d : Calendar.Date} (inYears : 0 ≤ d.month) : readDate (dateText d) = some d := by
  have dayWidth : (padded 2 (d.day + 1)).length = 2 := length_padded (by decide) (day_lt_hundred d)
  have monthWidth : (padded 2 ((d.month % 12).toNat + 1)).length = 2 := length_padded (by decide) (by omega)
  have first : (dateText d).take 2 = padded 2 (d.day + 1) := by
    exact List.take_left' dayWidth
  have afterDay : (dateText d).drop 3 = padded 2 ((d.month % 12).toNat + 1) ++ '.' :: padded 4 (d.month / 12).toNat := by
    have shape : dateText d = padded 2 (d.day + 1) ++ ['.'] ++
        (padded 2 ((d.month % 12).toNat + 1) ++ '.' :: padded 4 (d.month / 12).toNat) := by simp [dateText]
    have width : (padded 2 (d.day + 1) ++ ['.']).length = 3 := by simp [dayWidth]
    rw [shape]
    exact List.drop_left' width
  have second : ((dateText d).drop 3).take 2 = padded 2 ((d.month % 12).toNat + 1) := by
    rw [afterDay]
    exact List.take_left' monthWidth
  have third : (dateText d).drop 6 = padded 4 (d.month / 12).toNat := by
    have split : (dateText d).drop 6 = ((dateText d).drop 3).drop 3 := by rw [List.drop_drop]
    have shape : padded 2 ((d.month % 12).toNat + 1) ++ '.' :: padded 4 (d.month / 12).toNat =
        padded 2 ((d.month % 12).toNat + 1) ++ ['.'] ++ padded 4 (d.month / 12).toNat := by simp
    have width : (padded 2 ((d.month % 12).toNat + 1) ++ ['.']).length = 3 := by simp [monthWidth]
    rw [split, afterDay, shape]
    exact List.drop_left' width
  unfold readDate
  rw [first, second, third, readNat_padded, readNat_padded, readNat_padded]
  exact dateOf_parts inYears

end Numerals
end Shiftlush
