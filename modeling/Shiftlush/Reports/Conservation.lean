import Shiftlush.Reports.Content

namespace Shiftlush
namespace Reports

open Calendar (Date monthBounds next_monthBounds monthBounds_lt monthBounds_le le_monthBounds_iff)
open Fleet (Contract ContractElevator ContractStatus)
open Faults (Fault localDate dayStart dayStart_le_iff lt_dayStart_iff)

/-!
# From one month's report to the next

A fault is open at the end of a month, resolved in it or opened in it by tests
on the fault alone, but for the lines that are read for the month.  So the four
figures add up exactly if the open faults are covered in both months' reading.
-/

/-! ## Counting -/

section Counting

variable {α : Type} {l : List α} {p q p' q' : α -> Bool}

theorem countP_add_countP (pointwise : ∀ a ∈ l, (p a).toNat + (q a).toNat = (p' a).toNat + (q' a).toNat) :
    l.countP p + l.countP q = l.countP p' + l.countP q' := by
  induction l with
  | nil => rfl
  | cons a l ih =>
      have rest := ih (fun b mem => pointwise b (List.mem_cons_of_mem a mem))
      have head := pointwise a List.mem_cons_self
      simp only [List.countP_cons]
      cases hp : p a <;> cases hq : q a <;> cases hp' : p' a <;> cases hq' : q' a <;>
        simp [hp, hq, hp', hq'] at head ⊢ <;> omega

/-- A test that is passed by no more elements is passed by as many only if it is
passed by the same. -/
theorem countP_eq_countP_iff (stronger : ∀ a ∈ l, p a = true -> q a = true) :
    l.countP q = l.countP p ↔ ∀ a ∈ l, q a = true -> p a = true := by
  induction l with
  | nil => simp
  | cons a l ih =>
      have stronger' : ∀ b ∈ l, p b = true -> q b = true := fun b mem => stronger b (List.mem_cons_of_mem a mem)
      have fewer := List.countP_mono_left stronger'
      have head := stronger a List.mem_cons_self
      simp only [List.countP_cons, List.mem_cons, forall_eq_or_imp, ← ih stronger']
      cases hp : p a with
      | true => simp [head hp]
      | false =>
          cases hq : q a with
          | true => simp; omega
          | false => simp

end Counting

variable {db : Database} {customer : Nat} {month : Int}

/-! ## Coverage, as a month reads it -/

/-- On a day up to the end of the month, the month's reading misses only lines
that have ended before it. -/
theorem isCovered_iff {elevator : Nat} {day : Date} (before : day ≤ (monthBounds month).2) :
    isCovered (db.covered customer month elevator) day = true ↔
      db.CoveredInto customer elevator day (monthBounds month).1 := by
  unfold isCovered Database.covered Database.coveredDays Database.CoveredInto
  simp only [List.any_eq_true, List.mem_filterMap, Option.bind_eq_some_iff, Option.ite_none_right_eq_some,
    Option.some.injEq, decide_eq_true_eq]
  constructor
  · rintro ⟨range, ⟨r, mem, contract, found, ⟨listed, _⟩, rfl⟩, first, last⟩
    simp only [isListed, Bool.and_eq_true, decide_eq_true_eq, Option.all_eq_true] at listed
    rcases listed with ⟨⟨own, lift, billed, _, contractEnd, _⟩, lineEnd⟩
    exact ⟨r, mem, contract, found, own, lift, billed, contractEnd, lineEnd, first, last⟩
  · rintro ⟨r, mem, contract, found, own, lift, billed, contractEnd, lineEnd, first, last⟩
    refine ⟨_, ⟨r, mem, contract, found, ⟨?_, first.trans last⟩, rfl⟩, first, last⟩
    have starts := first.trans before
    simp only [isListed, Bool.and_eq_true, decide_eq_true_eq, Option.all_eq_true]
    refine ⟨⟨own, lift, billed, ?_, contractEnd, ?_⟩, lineEnd⟩
    · exact (le_max_right _ _).trans starts
    · exact (le_max_left _ _).trans starts

/-! ## The figures -/

/-- Whether a figure of the month counts a fault. -/
def Database.figure (db : Database) (customer : Nat) (month : Int) (test : Fault -> Bool) (r : Nat × Fault) :
    Bool :=
  db.isRead customer month r.2 &&
    isCovered (db.covered customer month r.2.elevator) (localDate r.2.reportedAt) && test r.2

/-- A figure counts the faults, whatever the order they are read in. -/
theorem length_filter_monthFaults (test : Fault -> Bool) :
    ((db.monthFaults customer month).filter (fun r => test r.2)).length =
      db.faults.countP (db.figure customer month test) := by
  have sorted := List.perm_insertionSort reportedBefore (db.faults.filter (fun r => db.isRead customer month r.2))
  unfold Database.monthFaults
  rw [← List.countP_eq_length_filter, List.countP_filter, sorted.countP_eq, List.countP_filter]
  apply List.countP_congr
  intro r _
  simp only [Database.figure, Bool.and_eq_true]
  tauto

/-- What a figure counts, if its test passes no fault resolved before the month. -/
theorem figure_iff {r : Nat × Fault} {test : Fault -> Bool}
    (current : test r.2 = true -> isBy (monthBounds month).2 r.2.resolvedAt = true ->
      (monthBounds month).1 ≤ localDate r.2.reportedAt ∨
        ∃ moment, r.2.resolvedAt = some moment ∧ (monthBounds month).1 ≤ localDate moment) :
    db.figure customer month test r = true ↔
      db.Counts customer month r.2 ∧ localDate r.2.reportedAt ≤ (monthBounds month).2 ∧ test r.2 = true := by
  have read : r.2.reportedAt < dayStart (monthBounds month).2.next ↔
      localDate r.2.reportedAt ≤ (monthBounds month).2 := by
    rw [lt_dayStart_iff, next_monthBounds, le_monthBounds_iff]
  constructor
  · intro counted
    simp only [Database.figure, Database.isRead, Bool.and_eq_true, decide_eq_true_eq, read] at counted
    rcases counted with ⟨⟨⟨⟨⟨lift, before⟩, stands⟩, _⟩, covered⟩, passes⟩
    have live := (List.mem_filter.mp lift).1
    exact ⟨⟨live, stands, (isCovered_iff before).mp covered⟩, before, passes⟩
  · rintro ⟨counts, before, passes⟩
    have covered := (isCovered_iff before).mpr counts.covered
    have lift : r.2.elevator ∈ db.lifts customer month := by
      refine List.mem_filter.mpr ⟨counts.live, decide_eq_true ?_⟩
      intro none
      rw [none] at covered
      cases covered
    simp only [Database.figure, Database.isRead, Bool.and_eq_true, Bool.or_eq_true, decide_eq_true_eq, read,
      dayStart_le_iff]
    refine ⟨⟨⟨⟨⟨lift, before⟩, counts.stands⟩, ?_⟩, covered⟩, passes⟩
    cases stamp : r.2.resolvedAt with
    | none => exact Or.inl (Or.inr rfl)
    | some moment =>
        simp only [Option.any_some, decide_eq_true_eq]
        by_cases by_end : isBy (monthBounds month).2 r.2.resolvedAt = true
        · rcases current passes by_end with reported | ⟨moment', same, resolved⟩
          · exact Or.inl (Or.inl reported)
          · rw [stamp, Option.some.injEq] at same
            rw [same]
            exact Or.inr resolved
        · rw [isBy, stamp, Option.any_some, decide_eq_true_eq, not_le] at by_end
          exact Or.inr ((monthBounds_le month).trans by_end.le)

/-! ## Two months -/

theorem Database.Counts.before {fault : Fault} (counts : db.Counts customer (month + 1) fault) :
    db.Counts customer month fault := by
  have earlier := (monthBounds_lt month).le
  rcases counts.covered with ⟨r, mem, contract, found, own, lift, billed, contractEnd, lineEnd, first, last⟩
  refine ⟨counts.live, counts.stands, r, mem, contract, found, own, lift, billed, earlier.trans contractEnd, ?_,
    first, last⟩
  intro removed stamp
  exact earlier.trans (lineEnd removed stamp)

variable (db customer month) in
/-- The faults that are open at the end of the month, as the next report reads them. -/
def Database.carried : Nat × Fault -> Bool := db.figure customer (month + 1) (isOpenAt month)

variable {r : Nat × Fault}

theorem openAtEnd_iff : db.figure customer month (isUnresolved month) r = true ↔
    db.Counts customer month r.2 ∧ isOpenAt month r.2 = true := by
  rw [figure_iff]
  · simp [isOpenAt]
  · intro passes by_end
    simp [isUnresolved, by_end] at passes

theorem opened_iff : db.figure customer (month + 1) (isOpened (month + 1)) r = true ↔
    db.Counts customer (month + 1) r.2 ∧ localDate r.2.reportedAt ≤ (monthBounds (month + 1)).2 ∧
      ¬ localDate r.2.reportedAt ≤ (monthBounds month).2 := by
  unfold isOpened
  rw [figure_iff]
  · rw [decide_eq_true_eq, dayStart_le_iff, @le_monthBounds_iff month, not_lt]
  · intro passes _
    exact Or.inl (dayStart_le_iff.mp (of_decide_eq_true passes))

/-- Resolved in the next month: not by the end of this one, but by the end of that. -/
theorem isResolved_iff {fault : Fault} : isResolved (month + 1) fault = true ↔
    isBy (monthBounds month).2 fault.resolvedAt = false ∧ isBy (monthBounds (month + 1)).2 fault.resolvedAt = true := by
  unfold isResolved isBy
  cases fault.resolvedAt with
  | none => simp
  | some moment =>
      simp only [Option.any_some, decide_eq_true_eq, decide_eq_false_iff_not, @le_monthBounds_iff month, not_lt]

/-- A fault that was not resolved by the end of the month is not resolved before the next. -/
theorem resolved_later {fault : Fault} (before : isBy (monthBounds month).2 fault.resolvedAt = false)
    (by_end : isBy (monthBounds (month + 1)).2 fault.resolvedAt = true) :
    ∃ moment, fault.resolvedAt = some moment ∧ (monthBounds (month + 1)).1 ≤ localDate moment := by
  rcases (Option.any_eq_true _ _).mp by_end with ⟨moment, stamp, _⟩
  refine ⟨moment, stamp, not_lt.mp (le_monthBounds_iff.not.mp ?_)⟩
  simpa [isBy, stamp] using before

theorem carried_iff : db.carried customer month r = true ↔
    db.Counts customer (month + 1) r.2 ∧ isOpenAt month r.2 = true := by
  unfold Database.carried
  rw [figure_iff]
  · simp only [isOpenAt, Bool.and_eq_true, decide_eq_true_eq]
    constructor
    · rintro ⟨counts, _, open_⟩
      exact ⟨counts, open_⟩
    · rintro ⟨counts, reported, unresolved⟩
      have within := (le_monthBounds_iff.mp reported).le.trans (monthBounds_le (month + 1))
      exact ⟨counts, within, reported, unresolved⟩
  · intro passes by_end
    simp only [isOpenAt, isUnresolved, Bool.and_eq_true, Bool.not_eq_true'] at passes
    exact Or.inr (resolved_later passes.2 by_end)

theorem resolvedIn_iff : db.figure customer (month + 1) (isResolved (month + 1)) r = true ↔
    db.Counts customer (month + 1) r.2 ∧ localDate r.2.reportedAt ≤ (monthBounds (month + 1)).2 ∧
      isBy (monthBounds month).2 r.2.resolvedAt = false ∧ isBy (monthBounds (month + 1)).2 r.2.resolvedAt = true := by
  rw [figure_iff]
  · rw [isResolved_iff]
  · intro passes by_end
    exact Or.inr (resolved_later (isResolved_iff.mp passes).1 by_end)

/-- Fault by fault, what is resolved in a month or open at its end was carried into
it or is opened in it. -/
theorem balance (mem : r ∈ db.faults) :
    (db.figure customer (month + 1) (isResolved (month + 1)) r).toNat +
        (db.figure customer (month + 1) (isUnresolved (month + 1)) r).toNat =
      (db.carried customer month r).toNat + (db.figure customer (month + 1) (isOpened (month + 1)) r).toNat := by
  classical
  have toNat (b : Bool) : b.toNat = if b = true then 1 else 0 := by cases b <;> rfl
  simp only [toNat, resolvedIn_iff, openAtEnd_iff, carried_iff, opened_iff, isOpenAt, isUnresolved, Bool.and_eq_true,
    Bool.not_eq_true', decide_eq_true_eq]
  by_cases counts : db.Counts customer (month + 1) r.2
  · by_cases before : localDate r.2.reportedAt ≤ (monthBounds month).2
    · have within : localDate r.2.reportedAt ≤ (monthBounds (month + 1)).2 :=
        (le_monthBounds_iff.mp before).le.trans (monthBounds_le (month + 1))
      cases now : isBy (monthBounds month).2 r.2.resolvedAt with
      | true =>
          have still : isBy (monthBounds (month + 1)).2 r.2.resolvedAt = true := by
            rcases (Option.any_eq_true _ _).mp now with ⟨moment, stamp, resolved⟩
            rw [decide_eq_true_eq] at resolved
            have later := (le_monthBounds_iff.mp resolved).le.trans (monthBounds_le (month + 1))
            simpa [isBy, stamp] using later
          simp [still, before]
      | false =>
          cases later : isBy (monthBounds (month + 1)).2 r.2.resolvedAt <;>
            simp [counts, before, within]
    · -- nothing is resolved before it is reported
      have now : isBy (monthBounds month).2 r.2.resolvedAt = false := by
        cases stamp : r.2.resolvedAt with
        | none => rfl
        | some moment =>
            have after := Faults.localDate_mono (db.resolved r mem moment stamp)
            exact decide_eq_false (fun resolved => before (after.trans resolved))
      cases later : isBy (monthBounds (month + 1)).2 r.2.resolvedAt <;> simp [counts, before, now]
  · simp [counts]

/-- From one month to the next the figures of the reports add up exactly if every
fault that is open in between and counts for the one counts for the other. -/
theorem faults_conserved (db : Database) (customer : Nat) (month : Int) :
    ((db.buildReport customer month).summary.faultsOpenAtEnd : Int) +
          (db.buildReport customer (month + 1)).summary.faultsOpened -
        (db.buildReport customer (month + 1)).summary.faultsResolved =
      (db.buildReport customer (month + 1)).summary.faultsOpenAtEnd ↔ db.CarriesOver customer month := by
  have balanced := countP_add_countP (fun r mem => @balance db customer month r mem)
  have carried : db.faults.countP (db.figure customer month
        (isUnresolved month)) =
      db.faults.countP (db.carried customer month) ↔ db.CarriesOver customer month := by
    rw [countP_eq_countP_iff]
    · simp only [openAtEnd_iff, carried_iff]
      constructor
      · intro same r mem open_ counts
        exact (same r mem ⟨counts, open_⟩).1
      · rintro carries r mem ⟨counts, open_⟩
        exact ⟨carries r mem open_ counts, open_⟩
    · intro r _ carried
      rcases carried_iff.mp carried with ⟨counts, open_⟩
      exact openAtEnd_iff.mpr ⟨counts.before, open_⟩
  rw [← carried]
  simp only [Database.buildReport, Database.openAtEnd, Database.opened, Database.resolvedIn,
    length_filter_monthFaults]
  omega

/-! ## A renewal at the end of March -/

/-- The terms of both contracts. -/
def yearly (status : ContractStatus) (start finish : Date) (previous : Option Nat) : Contract where
  customer := 0
  status := status
  scope := .maintenanceOnly
  startDate := start
  endDate := finish
  pricingType := .flat
  monthlyFee := some 100000
  currency := "TRY"
  vatRate := some 2000
  billingPeriod := .monthly
  autoRenew := true
  renewalNoticeDays := 60
  previousContract := previous
  terminatedAt := none
  terminationReason := ""
  notes := ""

/-- A fault of 20 March 2026, not resolved. -/
def unresolved : Fault where
  elevator := 0
  reference := "7KQ2MX"
  channel := .staff
  reportedBy := none
  reporterName := ""
  reporterPhone := ""
  description := "stops between floors"
  additionalReports := []
  priority := .high
  status := .open
  technician := none
  reportedAt := dayStart ⟨24314, 19, by decide⟩
  assignedAt := none
  onSiteAt := none
  resolvedAt := none
  closedAt := none
  cancelledAt := none
  cancelReason := ""
  resolutionNotes := ""
  partsUsed := ""
  billable := none
  billableOverridden := false
  stoppedElevator := false

/-- One lift, whose contract ended on 31 March 2026 and was renewed from the day after. -/
def renewed : Database where
  contracts := [(0, yearly .renewed (.first 24303) (Date.first 24315).previous none),
    (1, yearly .active (.first 24315) (Date.first 24327).previous (some 0))]
  lines := [(0, ⟨0, 0, none, .first 24303, some (.first 24315)⟩), (1, ⟨1, 0, none, .first 24315, none⟩)]
  elevators := [0]
  faults := [(0, unresolved)]
  resolved := by
    intro r mem moment stamp
    rw [List.mem_singleton.mp mem] at stamp
    cases stamp

theorem unresolved_on : localDate unresolved.reportedAt = ⟨24314, 19, by decide⟩ := by
  have reported : unresolved.reportedAt = dayStart ⟨24314, 19, by decide⟩ := rfl
  rw [reported]
  apply Faults.localDate_dayStart
  decide +kernel

theorem lt_first_succ (month : Int) (day : Date) : day ≤ (Date.first (month + 1)).previous ↔ day < .first (month + 1) :=
  le_monthBounds_iff

/-- The first contract covers the lift from April 2025 on, the second from April 2026 on. -/
theorem renewed_covered {day start : Date} : renewed.CoveredInto 0 0 day start ↔
    (start < .first 24315 ∧ Date.first 24303 ≤ day ∧ day < .first 24315) ∨
      (start < .first 24327 ∧ Date.first 24315 ≤ day ∧ day < .first 24327) := by
  have march := lt_first_succ 24314
  have year := lt_first_succ 24326
  norm_num at march year
  constructor
  · rintro ⟨r, mem, contract, found, _, _, _, ends, _, first, last⟩
    have either : r = (0, ⟨0, 0, none, .first 24303, some (.first 24315)⟩) ∨
        r = (1, ⟨1, 0, none, .first 24315, none⟩) := by simpa [renewed] using mem
    rcases either with rfl | rfl
    · left
      cases found
      rw [yearly, march] at ends
      exact ⟨ends, (le_max_left _ _).trans first, (march day).mp (last.trans (min_le_right _ _))⟩
    · right
      cases found
      rw [yearly, year] at ends
      exact ⟨ends, (le_max_left _ _).trans first, (year day).mp (last.trans (min_le_right _ _))⟩
  · rintro (⟨ends, first, last⟩ | ⟨ends, first, last⟩)
    · refine ⟨_, List.mem_cons_self, _, rfl, rfl, rfl, by decide, (march start).mpr ends, ?_, ?_, ?_⟩
      · intro removed stamp
        cases stamp
        exact ends.le
      · exact max_le first first
      · exact le_min last.le ((march day).mpr last)
    · refine ⟨_, List.mem_cons_of_mem _ List.mem_cons_self, _, rfl, rfl, rfl, by decide, (year start).mpr ends,
        ?_, ?_, ?_⟩
      · intro removed stamp
        cases stamp
      · exact max_le first first
      · exact le_min ((year day).mpr last) ((year day).mpr last)

theorem renewed_unbroken : renewed.Unbroken 0 (monthBounds 24315).2 := by
  rintro elevator live day covered later after within
  rw [List.mem_singleton.mp live] at covered ⊢
  unfold Database.CoveredOn at covered ⊢
  rw [renewed_covered] at covered ⊢
  have year : (monthBounds 24315).2 < .first 24327 := by decide +kernel
  have start : Date.first 24303 ≤ day := by
    rcases covered with ⟨_, start, _⟩ | ⟨_, start, _⟩
    · exact start
    · have earlier : Date.first 24303 ≤ .first 24315 := by decide +kernel
      exact earlier.trans start
  rcases lt_or_ge later (.first 24315) with before | from_
  · exact Or.inl ⟨before, start.trans after, before⟩
  · exact Or.inr ⟨within.trans_lt year, from_, within.trans_lt year⟩

/-- The fault drops out of the reports. -/
theorem fault_lost : ¬ ∀ (db : Database) (customer : Nat) (month : Int),
    db.Unbroken customer (monthBounds (month + 1)).2 ->
    ((db.buildReport customer month).summary.faultsOpenAtEnd : Int) +
          (db.buildReport customer (month + 1)).summary.faultsOpened -
        (db.buildReport customer (month + 1)).summary.faultsResolved =
      (db.buildReport customer (month + 1)).summary.faultsOpenAtEnd := by
  intro law
  have sum := law renewed 0 24314 renewed_unbroken
  have carried : renewed.Counts 0 24314 unresolved := by
    refine ⟨List.mem_singleton.mpr rfl, by decide, ?_⟩
    rw [unresolved_on]
    exact renewed_covered.mpr (Or.inl (by decide +kernel))
  have lost : ¬ renewed.Counts 0 (24314 + 1) unresolved := by
    intro counts
    have covered := counts.covered
    rw [unresolved_on] at covered
    rcases renewed_covered.mp covered with ⟨start, _⟩ | ⟨_, start, _⟩
    · exact absurd start (by decide +kernel)
    · exact absurd start (by decide +kernel)
  have open_ : isOpenAt 24314 unresolved = true := by
    unfold isOpenAt
    rw [unresolved_on]
    decide +kernel
  have listed : renewed.faults = [(0, unresolved)] := rfl
  simp only [Database.buildReport, Database.openAtEnd, Database.opened, Database.resolvedIn,
    length_filter_monthFaults, listed, List.countP_singleton] at sum
  have still := (openAtEnd_iff (r := (0, unresolved))).mpr ⟨carried, open_⟩
  have unopened := mt (opened_iff (r := (0, unresolved))).mp (fun here => lost here.1)
  have unsolved := mt (resolvedIn_iff (r := (0, unresolved))).mp (fun here => lost here.1)
  have closed := mt (openAtEnd_iff (r := (0, unresolved))).mp (fun here => lost here.1)
  rw [if_pos still, if_neg unopened, if_neg unsolved, if_neg closed] at sum
  exact absurd sum (by decide)

end Reports
end Shiftlush
