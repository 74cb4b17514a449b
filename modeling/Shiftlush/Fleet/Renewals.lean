import Shiftlush.Billing.PeriodsTile
import Mathlib.Logic.Function.Iterate

namespace Shiftlush
namespace Fleet

open Calendar (Date)
open Tilings (Tiles)

/-!
# Renewal terms tile the calendar

Each term starts the day after the one before it.  A term of whole months is
recognized by stepping from its first day, and the next is stepped from the day
that step arrives at: on a day that every month has, steps add up.
-/

/-- The days of a contract. -/
structure Term where
  start : Date
  finish : Date
  ordered : start ≤ finish

namespace Term

def days (term : Term) : Nat := (term.finish.ordinal - term.start.ordinal).toNat + 1

/-- So many months from its first day, on the same day of the month. -/
def IsWhole (term : Term) (months : Nat) : Prop :=
  term.finish.next = term.start.addMonths months ∧ term.finish.next.day = term.start.day

variable {term : Term} {months : Nat}

theorem start_lt (term : Term) : term.start < term.finish.next := by
  have ordered := Date.le_iff.mp term.ordered
  rw [Date.lt_iff, Date.ordinal_next]
  omega

theorem IsWhole.pos (whole : term.IsWhole months) : 0 < months := by
  rcases Nat.eq_zero_or_pos months with rfl | pos
  · have same := whole.1
    rw [Date.addMonths_zero] at same
    exact absurd same (ne_of_gt term.start_lt)
  · exact pos

/-- The months that `next_term` counts are the term's. -/
theorem IsWhole.months_eq (whole : term.IsWhole months) :
    (term.finish.next.month - term.start.month).toNat = months := by
  have month : term.finish.next.month = term.start.month + months := congrArg Date.month whole.1
  omega

theorem nextTerm_of_whole (whole : term.IsWhole months) :
    nextTerm term.start term.finish = (term.finish.next, (term.finish.next.addMonths months).previous) := by
  have counted := whole.months_eq
  unfold nextTerm
  dsimp only
  rw [counted, if_pos ⟨whole.pos, whole.2, whole.1.symm⟩]

theorem nextTerm_of_not_whole (broken : ∀ months, ¬ term.IsWhole months) :
    nextTerm term.start term.finish =
      (term.finish.next, term.finish.next.addDays (term.finish.ordinal - term.start.ordinal).toNat) := by
  unfold nextTerm
  dsimp only
  rw [if_neg]
  rintro ⟨_, day, same⟩
  exact broken _ ⟨same.symm, day⟩

theorem nextTerm_start (start finish : Date) : (nextTerm start finish).1 = finish.next := by
  unfold nextTerm
  dsimp only
  split <;> rfl

theorem nextTerm_ordered (term : Term) :
    (nextTerm term.start term.finish).1 ≤ (nextTerm term.start term.finish).2 := by
  by_cases whole : ∃ months, term.IsWhole months
  · rcases whole with ⟨months, whole⟩
    have later := Date.addMonths_strictMono term.finish.next whole.pos
    rw [Date.addMonths_zero, Date.lt_iff] at later
    rw [nextTerm_of_whole whole, Date.le_iff, Date.ordinal_previous]
    dsimp only
    omega
  · rw [nextTerm_of_not_whole (not_exists.mp whole), Date.le_iff, Date.ordinal_addDays]
    dsimp only
    omega

/-- The term that `expire` renews to. -/
def next (term : Term) : Term where
  start := (nextTerm term.start term.finish).1
  finish := (nextTerm term.start term.finish).2
  ordered := term.nextTerm_ordered

/-- The term after so many renewals. -/
def renewal (term : Term) (n : Nat) : Term := next^[n] term

/-- The terms through that one. -/
def terms (term : Term) (n : Nat) : List (Date × Date) :=
  (List.range (n + 1)).map (fun k => ((term.renewal k).start, (term.renewal k).finish))

theorem start_next (term : Term) : term.next.start = term.finish.next := nextTerm_start _ _

/-- Same days, where the months are not whole. -/
theorem days_next (broken : ∀ months, ¬ term.IsWhole months) : term.next.days = term.days := by
  have ordered := Date.le_iff.mp term.ordered
  unfold days next
  dsimp only
  rw [nextTerm_of_not_whole broken, Date.ordinal_addDays]
  dsimp only
  omega

theorem terms_succ (term : Term) (n : Nat) : term.terms (n + 1) = (term.start, term.finish) :: term.next.terms n := by
  unfold terms
  rw [List.range_succ_eq_map, List.map_cons, List.map_map]
  rfl

theorem terms_tile (term : Term) (n : Nat) : Tiles (term.renewal n).finish term.start (term.terms n) := by
  induction n generalizing term with
  | zero => exact ⟨rfl, term.ordered, rfl⟩
  | succ n ih =>
      have after := ih term.next
      rw [start_next] at after
      rw [terms_succ]
      exact ⟨rfl, term.ordered, after⟩

/-- A renewal of whole months starts where the months lead, and spans as many. -/
theorem renewal_whole (early : term.start.day < 28) (whole : term.finish.next = term.start.addMonths months) (n : Nat) :
    (term.renewal n).start = term.start.addMonths (n * months) ∧
    (term.renewal n).finish.next = term.start.addMonths ((n + 1) * months) := by
  induction n with
  | zero => exact ⟨by rw [Nat.zero_mul, Date.addMonths_zero]; rfl, by rw [Nat.zero_add, Nat.one_mul, ← whole]; rfl⟩
  | succ n ih =>
      rcases ih with ⟨start, finish⟩
      have more : (n + 1) * months = n * months + months := Nat.succ_mul n months
      have day := Date.day_addMonths early (n * months)
      have day' := Date.day_addMonths early ((n + 1) * months)
      have recognized : (term.renewal n).IsWhole months := by
        refine ⟨?_, ?_⟩
        · rw [finish, start, Date.addMonths_addMonths early, more]
        · rw [finish, start, day, day']
      have step : term.renewal (n + 1) = (term.renewal n).next := Function.iterate_succ_apply' next n term
      have moved : (term.renewal n).next.finish = ((term.renewal n).finish.next.addMonths months).previous :=
        congrArg Prod.snd (nextTerm_of_whole recognized)
      rw [step]
      refine ⟨?_, ?_⟩
      · rw [start_next, finish]
      · rw [moved, Date.next_previous, finish, Date.addMonths_addMonths early, ← Nat.succ_mul]

/-- What renewing a term so many times makes of the calendar. -/
structure Renews (term : Term) (n : Nat) : Prop where
  /-- Each term starts the day after the one before, and they share no day. -/
  contiguous : (term.terms n).IsChain (fun a b => b.1 = a.2.next)
  disjoint : (term.terms n).Pairwise (fun a b => a.2 < b.1)
  whole : ∀ months, term.start.day < 28 -> term.finish.next = term.start.addMonths months ->
    (term.renewal n).start = term.start.addMonths (n * months) ∧
    (term.renewal n).finish = (term.start.addMonths ((n + 1) * months)).previous
  /-- Of a term that is renewed, at whatever renewal. -/
  broken : (∀ months, ¬ (term.renewal n).IsWhole months) -> (term.renewal (n + 1)).days = (term.renewal n).days

/-- **Renewal terms tile the calendar**, by whole months from the first day where the
term is of whole months and every month has that day, and else by as many days. -/
theorem renews (term : Term) (n : Nat) : term.Renews n := by
  have tiled := term.terms_tile n
  refine ⟨tiled.contiguous, tiled.disjoint, ?_, ?_⟩
  · intro months early whole
    rcases renewal_whole early whole n with ⟨start, finish⟩
    refine ⟨start, ?_⟩
    rw [← finish]
    apply Date.ordinal_injective
    rw [Date.ordinal_previous, Date.ordinal_next]
    omega
  · intro broken
    have step : term.renewal (n + 1) = (term.renewal n).next := Function.iterate_succ_apply' next n term
    rw [step]
    exact days_next broken

end Term

end Fleet
end Shiftlush
