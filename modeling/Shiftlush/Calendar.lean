import Mathlib.Data.Int.Order.Basic
import Mathlib.Order.Lattice
import Mathlib.Tactic.Common
import Mathlib.Tactic.IntervalCases

namespace Shiftlush
namespace Calendar

/-!
# Calendar dates

The Gregorian calendar by its months, counted from January of the year 0.  A
date is a month and a day of it, so a date that does not exist cannot be
written, and stepping by months needs no arithmetic on days.  The ordinal of a
date gives the order and the distances.
-/

def isLeap (year : Int) : Bool :=
  decide (year % 4 = 0) && (decide (year % 100 ≠ 0) || decide (year % 400 = 0))

/-- The days of a month of a year, where January is 0. -/
def daysOf (leap : Bool) (m : Int) : Nat :=
  if m = 1 then (if leap then 29 else 28)
  else if m = 3 ∨ m = 5 ∨ m = 8 ∨ m = 10 then 30
  else 31

/-- The days of a year before a month of it. -/
def daysBefore (leap : Bool) (m : Int) : Int :=
  let february := if leap then 1 else 0
  if m ≤ 0 then 0 else if m = 1 then 31 else if m = 2 then 59 + february
  else if m = 3 then 90 + february else if m = 4 then 120 + february
  else if m = 5 then 151 + february else if m = 6 then 181 + february
  else if m = 7 then 212 + february else if m = 8 then 243 + february
  else if m = 9 then 273 + february else if m = 10 then 304 + february else 334 + february

/-- Leap years before a year, counted from the year 0. -/
def leapsBefore (year : Int) : Int := (year + 3) / 4 - (year + 99) / 100 + (year + 399) / 400

/-- `calendar.monthrange` -/
def monthLength (month : Int) : Nat := daysOf (isLeap (month / 12)) (month % 12)

/-- The ordinal of the first day of a month. -/
def monthStart (month : Int) : Int :=
  365 * (month / 12) + leapsBefore (month / 12) + daysBefore (isLeap (month / 12)) (month % 12)

theorem daysOf_pos (leap : Bool) (m : Int) : 0 < daysOf leap m := by
  unfold daysOf
  split_ifs <;> omega

theorem monthLength_pos (month : Int) : 0 < monthLength month := daysOf_pos _ _

theorem twentyEighth (month : Int) : 27 < monthLength month := by
  unfold monthLength daysOf
  split_ifs <;> omega

theorem fifteenth (month : Int) : 14 < monthLength month := lt_trans (by decide) (twentyEighth month)

theorem leapsBefore_succ (year : Int) :
    leapsBefore (year + 1) = leapsBefore year + if isLeap year = true then 1 else 0 := by
  have leap_iff : isLeap year = true ↔ year % 4 = 0 ∧ (year % 100 ≠ 0 ∨ year % 400 = 0) := by
    unfold isLeap
    simp only [Bool.and_eq_true, Bool.or_eq_true, decide_eq_true_eq]
  unfold leapsBefore
  by_cases leap : isLeap year = true
  · rw [if_pos leap]
    rw [leap_iff] at leap
    omega
  · rw [if_neg leap]
    rw [leap_iff] at leap
    omega

theorem daysBefore_succ (leap : Bool) {m : Int} (low : 0 ≤ m) (high : m < 11) :
    daysBefore leap (m + 1) = daysBefore leap m + daysOf leap m := by
  cases leap with
  | false => interval_cases m <;> rfl
  | true => interval_cases m <;> rfl

/-- December is what a year has left. -/
theorem daysBefore_december (leap : Bool) :
    daysBefore leap 11 + daysOf leap 11 = 365 + if leap = true then 1 else 0 := by
  cases leap with
  | false => rfl
  | true => rfl

/-- A month starts where the one before it ends. -/
theorem monthStart_succ (month : Int) : monthStart (month + 1) = monthStart month + monthLength month := by
  unfold monthStart monthLength
  by_cases december : month % 12 = 11
  · have year : (month + 1) / 12 = month / 12 + 1 := by omega
    have january : (month + 1) % 12 = 0 := by omega
    have last := daysBefore_december (isLeap (month / 12))
    have first : daysBefore (isLeap (month / 12 + 1)) 0 = 0 := rfl
    rw [year, january, leapsBefore_succ, december, first]
    omega
  · have year : (month + 1) / 12 = month / 12 := by omega
    have next : (month + 1) % 12 = month % 12 + 1 := by omega
    have step := daysBefore_succ (isLeap (month / 12)) (m := month % 12) (by omega) (by omega)
    rw [year, next, step]
    omega

theorem monthStart_lt {month month' : Int} (before : month < month') :
    monthStart month + monthLength month ≤ monthStart month' := by
  have gap : ∃ n : Nat, month' = month + 1 + n := ⟨(month' - month - 1).toNat, by omega⟩
  rcases gap with ⟨n, rfl⟩
  induction n with
  | zero =>
      rw [Int.natCast_zero, add_zero, monthStart_succ]
  | succ n ih =>
      have earlier := ih (by omega)
      have step := monthStart_succ (month + 1 + n)
      have same : month + 1 + ((n + 1 : Nat) : Int) = month + 1 + n + 1 := by omega
      rw [same, step]
      omega

/-! ## Dates -/

/-- A day of a month, the first being 0. -/
structure Date where
  month : Int
  day : Nat
  valid : day < monthLength month
  deriving DecidableEq

namespace Date

def ordinal (d : Date) : Int := monthStart d.month + d.day

/-- Dates in the same order have the same months in the same order. -/
theorem month_le_of_ordinal_le {d d' : Date} (le : d.ordinal ≤ d'.ordinal) : d.month ≤ d'.month := by
  by_contra later
  have before : d'.month < d.month := by omega
  have gap := monthStart_lt before
  have valid := d'.valid
  unfold ordinal at le
  omega

theorem ordinal_injective : Function.Injective ordinal := by
  intro d d' same
  have le := month_le_of_ordinal_le (le_of_eq same)
  have ge := month_le_of_ordinal_le (le_of_eq same.symm)
  have month : d.month = d'.month := le_antisymm le ge
  have day : d.day = d'.day := by
    unfold ordinal at same
    rw [month] at same
    omega
  rcases d with ⟨m, n, valid⟩
  cases month
  cases day
  rfl

instance : LinearOrder Date := LinearOrder.lift' ordinal ordinal_injective

theorem le_iff {d d' : Date} : d ≤ d' ↔ d.ordinal ≤ d'.ordinal := Iff.rfl

theorem lt_iff {d d' : Date} : d < d' ↔ d.ordinal < d'.ordinal := Iff.rfl

/-- The first day of a month. -/
def first (month : Int) : Date := ⟨month, 0, monthLength_pos month⟩

/-- `add_months`: the same day of a later month, or its last. -/
def addMonths (d : Date) (months : Nat) : Date where
  month := d.month + months
  day := min d.day (monthLength (d.month + months) - 1)
  valid := by
    have positive := monthLength_pos (d.month + months)
    omega

/-- The day after. -/
def next (d : Date) : Date :=
  if within : d.day + 1 < monthLength d.month then ⟨d.month, d.day + 1, within⟩
  else ⟨d.month + 1, 0, monthLength_pos _⟩

/-- The day before. -/
def previous (d : Date) : Date :=
  match d with
  | ⟨month, day + 1, valid⟩ => ⟨month, day, Nat.lt_of_succ_lt valid⟩
  | ⟨month, 0, _⟩ => ⟨month - 1, monthLength (month - 1) - 1, by
      have positive := monthLength_pos (month - 1)
      omega⟩

def addDays (d : Date) : Nat -> Date
  | 0 => d
  | days + 1 => (d.addDays days).next

theorem ordinal_next (d : Date) : d.next.ordinal = d.ordinal + 1 := by
  unfold next
  split
  · unfold ordinal
    push_cast
    omega
  · have valid := d.valid
    have step := monthStart_succ d.month
    unfold ordinal
    push_cast
    omega

theorem ordinal_previous (d : Date) : d.previous.ordinal = d.ordinal - 1 := by
  rcases d with ⟨month, day, valid⟩
  cases day with
  | succ day =>
      unfold previous ordinal
      push_cast
      omega
  | zero =>
      have step := monthStart_succ (month - 1)
      have positive := monthLength_pos (month - 1)
      have back : month - 1 + 1 = month := by omega
      rw [back] at step
      unfold previous ordinal
      dsimp only
      omega

theorem next_previous (d : Date) : d.previous.next = d := by
  apply ordinal_injective
  rw [ordinal_next, ordinal_previous]
  omega

theorem ordinal_addDays (d : Date) (days : Nat) : (d.addDays days).ordinal = d.ordinal + days := by
  induction days with
  | zero => simp [addDays]
  | succ days ih =>
      unfold addDays
      rw [ordinal_next, ih]
      push_cast
      omega

theorem lt_of_month_lt {d d' : Date} (before : d.month < d'.month) : d < d' := by
  have gap := monthStart_lt before
  have valid := d.valid
  rw [lt_iff]
  unfold ordinal
  omega

/-- Stepping from one origin by more months leads further. -/
theorem addMonths_strictMono (d : Date) : StrictMono d.addMonths := by
  intro k k' before
  apply lt_of_month_lt
  unfold addMonths
  dsimp only
  omega

theorem addMonths_zero (d : Date) : d.addMonths 0 = d := by
  rcases d with ⟨month, day, valid⟩
  unfold addMonths
  have same : month + ((0 : Nat) : Int) = month := by omega
  have least : min day (monthLength month - 1) = day := by omega
  simp only [same, least]

/-- A day that every month has is kept. -/
theorem day_addMonths {d : Date} (early : d.day < 28) (months : Nat) : (d.addMonths months).day = d.day := by
  have long := twentyEighth (d.month + months)
  unfold addMonths
  dsimp only
  omega

/-- From such a day, steps add up. -/
theorem addMonths_addMonths {d : Date} (early : d.day < 28) (months months' : Nat) :
    (d.addMonths months).addMonths months' = d.addMonths (months + months') := by
  have first := day_addMonths early months
  have last := day_addMonths early (months + months')
  have step := day_addMonths (d := d.addMonths months) (by omega) months'
  have month : ((d.addMonths months).addMonths months').month = (d.addMonths (months + months')).month := by
    unfold addMonths
    dsimp only
    push_cast
    omega
  apply ordinal_injective
  unfold ordinal
  rw [month, step, first, last]

end Date

/-! ## The days of a month -/

/-- `month_bounds` -/
def monthBounds (month : Int) : Date × Date := (.first month, (Date.first (month + 1)).previous)

theorem next_monthBounds (month : Int) : (monthBounds month).2.next = (monthBounds (month + 1)).1 :=
  Date.next_previous (.first (month + 1))

theorem monthBounds_lt (month : Int) : (monthBounds month).1 < (monthBounds (month + 1)).1 :=
  Date.lt_of_month_lt (Int.lt_add_one_iff.mpr le_rfl)

/-- A day is in the month or before it, or else in the next or after it. -/
theorem le_monthBounds_iff {month : Int} {day : Date} :
    day ≤ (monthBounds month).2 ↔ day < (monthBounds (month + 1)).1 := by
  have ends := congrArg Date.ordinal (next_monthBounds month)
  rw [Date.ordinal_next] at ends
  rw [Date.lt_iff, Date.le_iff]
  omega

theorem monthBounds_le (month : Int) : (monthBounds month).1 ≤ (monthBounds month).2 :=
  le_monthBounds_iff.mpr (monthBounds_lt month)

theorem first_le_iff {month : Int} {day : Date} : Date.first month ≤ day ↔ month ≤ day.month := by
  constructor
  · exact Date.month_le_of_ordinal_le
  · intro le
    rcases lt_or_eq_of_le le with before | same
    · exact (Date.lt_of_month_lt before).le
    · rw [Date.le_iff, same]
      unfold Date.ordinal Date.first
      push_cast
      omega

theorem within_monthBounds_iff {month : Int} {day : Date} :
    ((monthBounds month).1 ≤ day ∧ day ≤ (monthBounds month).2) ↔ day.month = month := by
  rw [le_monthBounds_iff, ← not_le]
  unfold monthBounds
  dsimp only
  rw [first_le_iff, first_le_iff]
  omega

/-! ## Dates from their ordinals -/

/-- `date.min` -/
def firstDate : Date := .first 12

/-- `date.fromordinal`, from the first of January of the year 1 on. -/
def ofOrdinal (ordinal : Int) : Date := firstDate.addDays (ordinal - firstDate.ordinal).toNat

theorem ordinal_ofOrdinal {ordinal : Int} (since : firstDate.ordinal ≤ ordinal) :
    (ofOrdinal ordinal).ordinal = ordinal := by
  rw [ofOrdinal, Date.ordinal_addDays]
  omega

theorem firstDate_le_ofOrdinal (ordinal : Int) : firstDate ≤ ofOrdinal ordinal := by
  rw [Date.le_iff, ofOrdinal, Date.ordinal_addDays]
  omega

end Calendar
end Shiftlush
