import Shiftlush.Fleet.Keys
import Shiftlush.Billing.Integrity

namespace Shiftlush
namespace Billing

open Calendar (Date)
open Fleet (BillingPeriod Contract Firm)
open Transitions (run everyStep)

/-!
# Days billed once

"One live draft per contract per period" is kept by the first day of the period
alone.  What the generator drafts follows the contract's dates and billing
period as they are on the day, so a contract whose periods have moved may be
billed again for days of an earlier draft.
-/

/-! ## Days two ranges share -/

theorem overlapDays_eq_zero {first second : Date × Date} : overlapDays first second = 0 ↔
    ∀ day, ¬ ((first.1 ≤ day ∧ day ≤ first.2) ∧ (second.1 ≤ day ∧ day ≤ second.2)) := by
  unfold overlapDays
  constructor
  · rintro apart day ⟨⟨low₁, high₁⟩, ⟨low₂, high₂⟩⟩
    have low : (max first.1 second.1).ordinal ≤ day.ordinal := Calendar.Date.le_iff.mp (max_le low₁ low₂)
    have high : day.ordinal ≤ (min first.2 second.2).ordinal := Calendar.Date.le_iff.mp (le_min high₁ high₂)
    omega
  · intro apart
    by_contra shared
    have within : max first.1 second.1 ≤ min first.2 second.2 := by
      rw [Calendar.Date.le_iff]
      omega
    apply apart (max first.1 second.1)
    exact ⟨⟨le_max_left _ _, within.trans (min_le_left _ _)⟩, ⟨le_max_right _ _, within.trans (min_le_right _ _)⟩⟩

/-! ## The periods of one contract -/

section Grid

variable {start finish : Date} {billingPeriod : BillingPeriod} {p q : Period}

theorem start_le_finish (mem : p ∈ periods start finish billingPeriod) : p.start ≤ p.finish := by
  rcases mem_periods.mp mem with ⟨k, within, rfl⟩
  exact le_min (periodAt start finish billingPeriod k).ordered within

/-- A period ends before a later one starts. -/
theorem finish_lt_start (start finish : Date) (billingPeriod : BillingPeriod) {k k' : Nat} (before : k < k') :
    (periodAt start finish billingPeriod k).finish < (periodAt start finish billingPeriod k').start := by
  have last : (periodAt start finish billingPeriod k).finish ≤
      (periodStart start billingPeriod (k + 1)).previous := min_le_left _ _
  have next : periodStart start billingPeriod (k + 1) ≤ periodStart start billingPeriod k' :=
    (periodStart_strictMono start billingPeriod).monotone before
  have same : (periodAt start finish billingPeriod k').start = periodStart start billingPeriod k' := rfl
  rw [same, Calendar.Date.lt_iff]
  rw [Calendar.Date.le_iff] at last next
  rw [Calendar.Date.ordinal_previous] at last
  omega

/-- Two periods that share a day are one. -/
theorem period_unique (mem : p ∈ periods start finish billingPeriod)
    (mem' : q ∈ periods start finish billingPeriod) {day : Date} (here : p.start ≤ day ∧ day ≤ p.finish)
    (here' : q.start ≤ day ∧ day ≤ q.finish) : p = q := by
  rcases mem_periods.mp mem with ⟨k, _, rfl⟩
  rcases mem_periods.mp mem' with ⟨k', _, rfl⟩
  rcases Nat.lt_trichotomy k k' with before | rfl | after
  · have gap := finish_lt_start start finish billingPeriod before
    exact absurd (here'.1.trans here.2) (not_le.mpr gap)
  · rfl
  · have gap := finish_lt_start start finish billingPeriod after
    exact absurd (here.1.trans here'.2) (not_le.mpr gap)

theorem period_of_start (mem : p ∈ periods start finish billingPeriod)
    (mem' : q ∈ periods start finish billingPeriod) (same : p.start = q.start) : p = q := by
  apply period_unique mem mem' ⟨le_refl p.start, start_le_finish mem⟩
  rw [same]
  exact ⟨le_refl q.start, start_le_finish mem'⟩

theorem mem_periods_of_due {contract : Contract} {today : Date} (due : p ∈ Office.duePeriods contract today) :
    p ∈ periods contract.startDate (lastBilledDay contract) contract.billingPeriod :=
  List.takeWhile_subset _ (List.mem_filter.mp due).1

end Grid

/-! ## Days of the drafts -/

def InvoiceDraft.covers (draft : InvoiceDraft) (day : Date) : Prop :=
  draft.periodStart ≤ day ∧ day ≤ draft.periodEnd

namespace Bills

/-- No day of a contract is on two of its live drafts. -/
def DaysOnce (v : Bills) : Prop :=
  ∀ r ∈ v.drafts, ∀ r' ∈ v.drafts, r.2.isLive = true -> r'.2.isLive = true ->
    r.2.contract = r'.2.contract -> ∀ day, r.2.covers day -> r'.2.covers day -> r = r'

/-- The period shares no day with a live draft of the contract. -/
def free (v : Bills) (id : Nat) (period : Period) : Bool :=
  v.drafts.all (fun r => !(decide (r.2.contract = id) && r.2.isLive) ||
    decide (overlapDays (period.start, period.finish) (r.2.periodStart, r.2.periodEnd) = 0))

end Bills

section Free

variable {v v' : Bills} {id : Nat} {period : Period}

theorem periodTaken_iff {day : Date} : v.periodTaken id day = true ↔
    ∃ r ∈ v.drafts, r.2.contract = id ∧ r.2.periodStart = day ∧ r.2.isLive = true := by
  unfold Bills.periodTaken
  simp only [List.any_eq_true, Bool.and_eq_true, decide_eq_true_eq, and_assoc]

theorem free_iff : v.free id period = true ↔ ∀ r ∈ v.drafts, r.2.contract = id -> r.2.isLive = true ->
    ∀ day, ¬ ((period.start ≤ day ∧ day ≤ period.finish) ∧ r.2.covers day) := by
  unfold Bills.free InvoiceDraft.covers
  rw [List.all_eq_true]
  constructor
  · intro apart r mem on live
    have here := apart r mem
    rw [decide_eq_true on, live, Bool.and_self, Bool.not_true, Bool.false_or, decide_eq_true_eq,
      overlapDays_eq_zero] at here
    exact here
  · intro apart r mem
    rw [Bool.or_eq_true, Bool.not_eq_true', Bool.and_eq_false_iff, decide_eq_false_iff_not, decide_eq_true_eq,
      overlapDays_eq_zero]
    by_cases on : r.2.contract = id
    · cases live : r.2.isLive with
      | true => exact Or.inr (apart r mem on live)
      | false => exact Or.inl (Or.inr rfl)
    · exact Or.inl (Or.inl on)

theorem periodTaken_mono {day : Date} (kept : ∀ r ∈ v.drafts, r ∈ v'.drafts)
    (taken : v.periodTaken id day = true) : v'.periodTaken id day = true := by
  rcases periodTaken_iff.mp taken with ⟨r, mem, rest⟩
  exact periodTaken_iff.mpr ⟨r, kept r mem, rest⟩

end Free

/-! ## A new draft among the others -/

section Drafting

variable {o : Office} {id : Nat} {contract : Contract} {vatRate : Int} {period : Period}

/-- The row of a draft for a period of a contract. -/
structure InvoiceDraft.For (draft : InvoiceDraft) (id : Nat) (period : Period) : Prop where
  contract : draft.contract = id
  start : draft.periodStart = period.start
  finish : draft.periodEnd = period.finish
  live : draft.isLive = true

theorem InvoiceDraft.For.covers {draft : InvoiceDraft} (drafted : draft.For id period) (day : Date) :
    draft.covers day ↔ period.start ≤ day ∧ day ≤ period.finish := by
  unfold InvoiceDraft.covers
  rw [drafted.start, drafted.finish]

/-- A draft is put after the others, with the totals of its lines. -/
theorem drafts_draftFor_eq (contract : Contract) (vatRate : Int) (sound : o.Sound)
    (free : o.bills.periodTaken id period.start = false) : (o.draftFor id contract vatRate period).bills.drafts =
      o.bills.drafts.insert o.nextId ((newDraft id contract vatRate period).withSums
        (totals ((o.written id contract vatRate period).amounts o.nextId) vatRate)) := by
  have absent : o.bills.drafts.get? o.nextId = none := sound.drafts.absent (Nat.le_refl _)
  have found : (o.written id contract vatRate period).drafts.get? o.nextId =
      some (newDraft id contract vatRate period) := Rows.get?_insert_self absent
  rw [Office.draftFor_of_free free]
  dsimp only
  rw [recompute_of_draft found rfl]
  unfold Bills.updateDraft Office.written Rows.insert Rows.update
  dsimp only
  rw [List.map_append, List.map_singleton, if_pos rfl]
  have others := Rows.update_absent_self (f := InvoiceDraft.withSums
    (totals ((o.written id contract vatRate period).amounts o.nextId) vatRate)) (Rows.get?_eq_none.mp absent)
  unfold Rows.update at others
  exact congrArg (· ++ _) others

theorem drafts_draftFor (contract : Contract) (vatRate : Int) (sound : o.Sound) (free : o.bills.periodTaken id period.start = false) :
    ∃ draft : InvoiceDraft, draft.For id period ∧
      (o.draftFor id contract vatRate period).bills.drafts = o.bills.drafts.insert o.nextId draft :=
  ⟨_, ⟨rfl, rfl, rfl, rfl⟩, drafts_draftFor_eq contract vatRate sound free⟩

theorem lines_draftFor_eq (contract : Contract) (vatRate : Int) (free : o.bills.periodTaken id period.start = false) :
    (o.draftFor id contract vatRate period).bills.lines =
      o.bills.lines ++ placed o.nextId (o.newLines id contract period) := by
  rw [Office.draftFor_of_free free]
  dsimp only
  rw [lines_recompute]
  rfl

theorem drafts_kept (sound : o.Sound) : ∀ r ∈ o.bills.drafts,
    r ∈ (o.draftFor id contract vatRate period).bills.drafts := by
  intro r mem
  cases free : o.bills.periodTaken id period.start with
  | true =>
      rw [Office.draftFor_of_taken free]
      exact mem
  | false =>
      rcases drafts_draftFor contract vatRate sound free with ⟨draft, _, drafts⟩
      rw [drafts]
      exact List.mem_append_left _ mem

/-- What is on the books after a period is drafted. -/
theorem mem_draftFor (sound : o.Sound) {r : Nat × InvoiceDraft}
    (mem : r ∈ (o.draftFor id contract vatRate period).bills.drafts) :
    r ∈ o.bills.drafts ∨ o.bills.periodTaken id period.start = false ∧ r.2.For id period := by
  cases free : o.bills.periodTaken id period.start with
  | true =>
      rw [Office.draftFor_of_taken free] at mem
      exact Or.inl mem
  | false =>
      rcases drafts_draftFor contract vatRate sound free with ⟨draft, drafted, drafts⟩
      rw [drafts] at mem
      rcases List.mem_append.mp mem with before | last
      · exact Or.inl before
      · rw [List.mem_singleton.mp last]
        exact Or.inr ⟨rfl, drafted⟩

theorem taken_draftFor (sound : o.Sound) :
    (o.draftFor id contract vatRate period).bills.periodTaken id period.start = true := by
  cases free : o.bills.periodTaken id period.start with
  | true =>
      rw [Office.draftFor_of_taken free]
      exact free
  | false =>
      rcases drafts_draftFor contract vatRate sound free with ⟨draft, drafted, drafts⟩
      rw [periodTaken_iff, drafts]
      exact ⟨_, List.mem_append_right _ (List.mem_singleton_self _), drafted.contract, drafted.start, drafted.live⟩

end Drafting

/-! ## A run of the generator -/

/-- The due periods that would be drafted share no day with a live draft of their
contract.  A run that is rolled back drafts none. -/
def Office.aligned (o : Office) : Event -> Bool
  | .generate today => o.overflows today || (Office.billedContracts o.firm today).all (fun r => r.2.vatRate.isNone ||
      (Office.duePeriods r.2 today).all (fun p => o.bills.periodTaken r.1 p.start || o.bills.free r.1 p))
  | _ => true

/-- A due period of a contract that gets drafts. -/
def Due (firm : Firm) (today : Date) (r : Nat × Contract) (p : Period) : Prop :=
  r ∈ Office.billedContracts firm today ∧ r.2.vatRate ≠ none ∧ p ∈ Office.duePeriods r.2 today

theorem aligned_iff {o : Office} {today : Date} (fits : o.overflows today = false) :
    o.aligned (.generate today) = true ↔ ∀ r p, Due o.firm today r p -> o.bills.periodTaken r.1 p.start = true ∨ o.bills.free r.1 p = true := by
  unfold Office.aligned Due
  simp only [fits, Bool.false_or, List.all_eq_true, Bool.or_eq_true, Option.isNone_iff_eq_none]
  constructor
  · rintro fits r p ⟨billed, rated, due⟩
    rcases fits r billed with unrated | each
    · exact absurd unrated rated
    · exact each p due
  · intro fits r billed
    by_cases rated : r.2.vatRate = none
    · exact Or.inl rated
    · exact Or.inr (fun p due => fits r p ⟨billed, rated, due⟩)

section Generating

variable {o : Office} {today : Date}

theorem billed_unique (distinct : o.firm.contracts.Distinct) {r r' : Nat × Contract}
    (billed : r ∈ Office.billedContracts o.firm today) (billed' : r' ∈ Office.billedContracts o.firm today)
    (same : r.1 = r'.1) : r = r' := by
  unfold Office.billedContracts at billed billed'
  rw [List.mem_insertionSort] at billed billed'
  exact Rows.unique distinct (List.mem_filter.mp billed).1 (List.mem_filter.mp billed').1 same

/-- The rule of a run: what each draft of a due period keeps. -/
theorem generate_due {J : Office -> Prop}
    (keeps : ∀ o' r vatRate p, Due o.firm today r p -> J o' -> J (o'.draftFor r.1 r.2 vatRate p)) (now : J o) :
    J (o.generate today) := by
  refine Office.generate_invariant ?_ now
  intro o' r o'' billed turned now'
  refine Office.bill_invariant ?_ turned now'
  intro o'' vatRate p rate due now''
  refine keeps o'' r vatRate p ⟨billed, ?_, due⟩ now''
  rw [rate]
  exact Option.some_ne_none vatRate

/-- One draft of the run, among drafts that share no day. -/
theorem daysOnce_draftFor {o' : Office} (sound : o'.Sound) (once : o'.bills.DaysOnce)
    {id : Nat} {contract : Contract} {vatRate : Int} {p : Period}
    (fits : o'.bills.periodTaken id p.start = true ∨ o'.bills.free id p = true) :
    (o'.draftFor id contract vatRate p).bills.DaysOnce := by
  rcases fits with taken | free
  · rw [Office.draftFor_of_taken taken]
    exact once
  · cases untaken : o'.bills.periodTaken id p.start with
    | true =>
        rw [Office.draftFor_of_taken untaken]
        exact once
    | false =>
        rcases drafts_draftFor contract vatRate sound untaken with
          ⟨draft, drafted, drafts⟩
        have apart : ∀ r ∈ o'.bills.drafts, r.2.isLive = true -> r.2.contract = draft.contract ->
            ∀ day, r.2.covers day -> ¬ draft.covers day := by
          intro r mem live on day here here'
          rw [drafted.contract] at on
          exact free_iff.mp free r mem on live day ⟨(drafted.covers day).mp here', here⟩
        intro r mem r' mem' live live' same day here here'
        rw [drafts] at mem mem'
        rcases List.mem_append.mp mem with old | new
        · rcases List.mem_append.mp mem' with old' | new'
          · exact once r old r' old' live live' same day here here'
          · rw [List.mem_singleton.mp new'] at same here'
            exact absurd here' (apart r old live same day here)
        · rcases List.mem_append.mp mem' with old' | new'
          · rw [List.mem_singleton.mp new] at same here
            exact absurd here (apart r' old' live' same.symm day here')
          · rw [List.mem_singleton.mp new, List.mem_singleton.mp new']

/-- The other due periods fit as well as before. -/
theorem fits_draftFor {o' : Office} (sound : o'.Sound) (distinct : o.firm.contracts.Distinct)
    {r r' : Nat × Contract} {vatRate : Int} {p q : Period} (due : Due o.firm today r p)
    (due' : Due o.firm today r' q)
    (fits : o'.bills.periodTaken r'.1 q.start = true ∨ o'.bills.free r'.1 q = true) :
    (o'.draftFor r.1 r.2 vatRate p).bills.periodTaken r'.1 q.start = true ∨
      (o'.draftFor r.1 r.2 vatRate p).bills.free r'.1 q = true := by
  rcases fits with taken | free
  · exact Or.inl (periodTaken_mono (drafts_kept sound) taken)
  · by_cases here : r'.1 = r.1 ∧ q = p
    · rw [here.1, here.2]
      exact Or.inl (taken_draftFor sound)
    · right
      rw [free_iff] at free ⊢
      intro s mem on live day shared
      rcases mem_draftFor sound mem with old | ⟨_, drafted⟩
      · exact free s old on live day shared
      · have same : r'.1 = r.1 := on.symm.trans drafted.contract
        have contract := billed_unique distinct due'.1 due.1 same
        subst contract
        apply here
        refine ⟨rfl, ?_⟩
        exact period_unique (mem_periods_of_due due'.2.2) (mem_periods_of_due due.2.2) shared.1
          ((drafted.covers day).mp shared.2)

theorem daysOnce_generate (sound : o.Sound) (distinct : o.firm.contracts.Distinct)
    (aligned : o.aligned (.generate today) = true) (once : o.bills.DaysOnce) :
    (o.generate today).bills.DaysOnce := by
  cases overflows : o.overflows today with
  | true =>
      rw [Office.generate_of_overflows overflows]
      exact once
  | false =>
      have all := generate_due (o := o)
        (J := fun o' => o'.Sound ∧ o'.bills.DaysOnce ∧ ∀ r p, Due o.firm today r p ->
          o'.bills.periodTaken r.1 p.start = true ∨ o'.bills.free r.1 p = true)
        (by
          rintro o' r vatRate p due ⟨sound', once', fits⟩
          refine ⟨sound'.draftFor, daysOnce_draftFor sound' once' (fits r p due), ?_⟩
          intro r' q due'
          exact fits_draftFor sound' distinct due due' (fits r' q due'))
        ⟨sound, once, (aligned_iff overflows).mp aligned⟩
      exact all.2.1

theorem drafts_generate (sound : o.Sound) : ∀ r ∈ o.bills.drafts, r ∈ (o.generate today).bills.drafts := by
  let J : Office -> Prop := fun o' => o'.Sound ∧ ∀ r ∈ o.bills.drafts, r ∈ o'.bills.drafts
  have all : J (o.generate today) := generate_due
    (by
      rintro o' r vatRate p _ ⟨sound', kept⟩
      exact ⟨sound'.draftFor, fun s mem => drafts_kept sound' s (kept s mem)⟩)
    ⟨sound, fun r mem => mem⟩
  exact all.2

/-- A run that is not rolled back leaves a draft for every due period. -/
theorem taken_generate (sound : o.Sound) (fits : o.overflows today = false) {r : Nat × Contract} {p : Period}
    (due : Due o.firm today r p) : (o.generate today).bills.periodTaken r.1 p.start = true := by
  let J : Office -> Prop := fun o' => o'.Sound
  let Q : Office -> Prop := fun o' => o'.bills.periodTaken r.1 p.start = true
  have stays : ∀ (o' : Office) id contract vatRate q, J o' -> Q o' -> Q (o'.draftFor id contract vatRate q) :=
    fun o' _ _ _ _ sound' taken => periodTaken_mono (drafts_kept sound') taken
  have soundBill : ∀ o' r' o'', Office.bill today o' r' = some o'' -> J o' -> J o'' := fun o' r' o'' turned sound' =>
    Office.bill_invariant (fun _ _ _ _ _ sound'' => sound''.draftFor) turned sound'
  have staysBill : ∀ o' r' o'', Office.bill today o' r' = some o'' -> J o' -> Q o' -> Q o'' := by
    intro o' r' o'' turned sound' taken
    have both : J o'' ∧ Q o'' := Office.bill_invariant (J := fun o'' => J o'' ∧ Q o'')
      (fun o'' vatRate q _ _ now => ⟨now.1.draftFor, stays o'' _ _ vatRate q now.1 now.2⟩) turned ⟨sound', taken⟩
    exact both.2
  have reaches : ∀ o' o'', J o' -> Office.bill today o' r = some o'' -> Q o'' := by
    intro o' o'' sound' turned
    cases taken : o'.bills.periodTaken r.1 p.start with
    | true => exact staysBill o' r o'' turned sound' taken
    | false =>
        unfold Office.bill at turned
        cases rate : r.2.vatRate with
        | none => exact absurd rate due.2.1
        | some vatRate =>
            rw [rate] at turned
            have missing : p ∈ Office.missingPeriods o'.bills r.1 r.2 today := by
              refine List.mem_filter.mpr ⟨due.2.2, ?_⟩
              rw [taken]
              rfl
            refine Transitions.foldlM_reaches (J := J) (Q := Q) ?_ ?_ ?_ missing turned sound'
            · intro o q o' _ sound'' stored
              rw [← (Office.stored_eq_some.mp stored).1]
              exact sound''.draftFor
            · intro o o' sound'' stored
              rw [← (Office.stored_eq_some.mp stored).1]
              exact taken_draftFor sound''
            · intro o q o' _ sound'' taken' stored
              rw [← (Office.stored_eq_some.mp stored).1]
              exact stays o _ _ vatRate q sound'' taken'
  exact Transitions.foldlM_reaches (J := J) (Q := Q) (fun o' r' o'' _ now turned => soundBill o' r' o'' turned now) reaches
    (fun o' r' o'' _ now taken turned => staysBill o' r' o'' turned now taken) due.1 (Office.drafted_eq_some fits) sound

/-- What a run adds is due. -/
theorem mem_generate (sound : o.Sound) {r : Nat × InvoiceDraft} (mem : r ∈ (o.generate today).bills.drafts) :
    r ∈ o.bills.drafts ∨ ∃ r' p, Due o.firm today r' p ∧ r.2.For r'.1 p := by
  have all := generate_due (o := o)
    (J := fun o' => o'.Sound ∧ ∀ r ∈ o'.bills.drafts,
      r ∈ o.bills.drafts ∨ ∃ r' p, Due o.firm today r' p ∧ r.2.For r'.1 p)
    (by
      rintro o' r' vatRate p due ⟨sound', origin⟩
      refine ⟨sound'.draftFor, ?_⟩
      intro s mem'
      rcases mem_draftFor sound' mem' with old | ⟨_, drafted⟩
      · exact origin s old
      · exact Or.inr ⟨r', p, due, drafted⟩)
    ⟨sound, fun r mem => Or.inl mem⟩
  exact all.2 r mem

/-- Where a run leaves no day billed twice, the due periods shared none. -/
theorem free_of_daysOnce (sound : o.Sound) (distinct : o.firm.contracts.Distinct) (fits : o.overflows today = false)
    (once : (o.generate today).bills.DaysOnce) (r : Nat × Contract) (p : Period) (due : Due o.firm today r p) :
    o.bills.periodTaken r.1 p.start = true ∨ o.bills.free r.1 p = true := by
  cases untaken : o.bills.periodTaken r.1 p.start with
  | true => exact Or.inl rfl
  | false =>
      right
      rw [free_iff]
      intro s mem on live day shared
      rcases periodTaken_iff.mp (taken_generate sound fits due) with ⟨drafted, mem', on', start, live'⟩
      have missing : drafted ∉ o.bills.drafts := by
        intro old
        have taken : o.bills.periodTaken r.1 p.start = true := periodTaken_iff.mpr ⟨drafted, old, on', start, live'⟩
        rw [untaken] at taken
        cases taken
      rcases mem_generate sound mem' with old | ⟨r', q, due', row⟩
      · exact missing old
      · have contract := billed_unique distinct due'.1 due.1 (row.contract.symm.trans on')
        subst contract
        have period := period_of_start (mem_periods_of_due due'.2.2) (mem_periods_of_due due.2.2)
          (row.start.symm.trans start)
        subst period
        have same := once s (drafts_generate sound s mem) drafted mem' live live' (on.trans on'.symm) day
          shared.2 ((row.covers day).mpr shared.1)
        exact missing (same ▸ mem)

/-- A run that leaves no day billed twice was aligned. -/
theorem aligned_of_daysOnce (sound : o.Sound) (distinct : o.firm.contracts.Distinct)
    (once : (o.generate today).bills.DaysOnce) : o.aligned (.generate today) = true := by
  cases fits : o.overflows today with
  | true =>
      unfold Office.aligned
      dsimp only
      rw [fits, Bool.true_or]
  | false => exact (aligned_iff fits).mpr (free_of_daysOnce sound distinct fits once)

end Generating

/-! ## Everything else -/

/-- A draft keeps its contract and its days, and comes back from nothing. -/
structure InvoiceDraft.Follows (before after : InvoiceDraft) : Prop where
  contract : after.contract = before.contract
  start : after.periodStart = before.periodStart
  finish : after.periodEnd = before.periodEnd
  live : after.isLive = true -> before.isLive = true

theorem InvoiceDraft.Follows.refl (draft : InvoiceDraft) : draft.Follows draft :=
  ⟨rfl, rfl, rfl, fun live => live⟩

/-- The same drafts, each following itself. -/
def Bills.Follows (v v' : Bills) : Prop :=
  ∀ r' ∈ v'.drafts, ∃ r ∈ v.drafts, r.1 = r'.1 ∧ r.2.Follows r'.2

namespace Bills.Follows

variable {v v' : Bills} {id : Nat}

theorem of_drafts (same : v'.drafts = v.drafts) : v.Follows v' := by
  intro r mem
  rw [same] at mem
  exact ⟨r, mem, rfl, .refl r.2⟩

theorem updateDraft {f : InvoiceDraft -> InvoiceDraft}
    (follows : ∀ draft, (id, draft) ∈ v.drafts -> draft.Follows (f draft)) : v.Follows (v.updateDraft id f) := by
  intro r mem
  rcases Rows.mem_update.mp mem with ⟨old, _⟩ | ⟨draft, old, rfl⟩
  · exact ⟨r, old, rfl, .refl r.2⟩
  · exact ⟨(id, draft), old, rfl, follows draft old⟩

theorem recompute (same : v'.drafts = v.drafts) (id : Nat) : v.Follows (v'.recompute id) := by
  unfold Bills.recompute
  split
  · split
    · intro r mem
      rcases Rows.mem_update.mp mem with ⟨old, _⟩ | ⟨draft, old, rfl⟩
      · rw [same] at old
        exact ⟨r, old, rfl, .refl r.2⟩
      · rw [same] at old
        exact ⟨(id, draft), old, rfl, ⟨rfl, rfl, rfl, fun live => live⟩⟩
    · exact of_drafts same
  · exact of_drafts same

/-- Days are on one draft as before. -/
theorem daysOnce (follows : v.Follows v') (distinct : v'.drafts.Distinct) (once : v.DaysOnce) :
    v'.DaysOnce := by
  intro r' mem' s' smem' live live' same day here here'
  rcases follows r' mem' with ⟨r, mem, key, row⟩
  rcases follows s' smem' with ⟨s, smem, skey, srow⟩
  have covered : r.2.covers day := by
    unfold InvoiceDraft.covers at here ⊢
    rwa [row.start, row.finish] at here
  have covered' : s.2.covers day := by
    unfold InvoiceDraft.covers at here' ⊢
    rwa [srow.start, srow.finish] at here'
  rw [row.contract, srow.contract] at same
  have one := once r mem s smem (row.live live) (srow.live live') same day covered covered'
  apply Rows.unique distinct mem' smem'
  rw [← key, ← skey, one]

end Bills.Follows

theorem follows_issued {draft : InvoiceDraft} (open_ : draft.status = .draft) (number : String) (date : Date) :
    draft.Follows (draft.issued number date).settled := by
  have live : draft.isLive = true := by
    unfold InvoiceDraft.isLive
    rw [open_]
    rfl
  unfold InvoiceDraft.settled
  split
  · exact ⟨rfl, rfl, rfl, fun _ => live⟩
  · exact ⟨rfl, rfl, rfl, fun _ => live⟩

theorem follows_synced (covered : Option Date) (draft : InvoiceDraft) : draft.Follows (draft.synced covered) := by
  unfold InvoiceDraft.synced
  split
  · rename_i payable
    have live := (status_of_payable payable).2
    split
    · exact ⟨rfl, rfl, rfl, fun _ => live⟩
    · split
      · exact ⟨rfl, rfl, rfl, fun _ => live⟩
      · exact ⟨rfl, rfl, rfl, fun _ => live⟩
  · exact .refl draft

/-- No call moves a draft to other days. -/
theorem follows_call {v v' : Bills} {bound : Nat} (sound : v.Sound bound) {call : Call}
    (done : call.attempt v bound = .ok v') : v.Follows v' := by
  have row : ∀ {id : Nat} {draft : InvoiceDraft}, v.drafts.get? id = some draft ->
      ∀ draft', (id, draft') ∈ v.drafts -> draft' = draft := by
    intro id draft found draft' mem
    rw [Rows.get?_of_mem sound.tallied.drafts mem] at found
    exact Option.some.inj found
  cases call with
  | addLine draft new =>
      rcases addLine_ok done with ⟨_, _, _, rfl⟩
      exact .recompute rfl draft
  | editLine id changes =>
      rcases editLine_ok done with ⟨line, _, _, _, _, _, rfl⟩
      exact .recompute rfl line.draft
  | removeLine id =>
      rcases removeLine_ok done with ⟨line, _, _, _, _, _, rfl⟩
      exact .recompute rfl line.draft
  | issue id number date posts =>
      rcases issue_ok done with ⟨draft, found, open_, _, rfl⟩
      rw [sound.tallied.recompute_eq id]
      apply Bills.Follows.updateDraft
      intro draft' mem
      rw [row found draft' mem]
      exact follows_issued open_ number date
  | markPaid id settles =>
      rcases markPaid_ok done with ⟨draft, found, issued, rfl⟩
      apply Bills.Follows.updateDraft
      intro draft' mem
      rw [row found draft' mem]
      refine ⟨rfl, rfl, rfl, fun _ => ?_⟩
      unfold InvoiceDraft.isLive
      rw [issued]
      rfl
  | cancel id reason reverses =>
      rcases cancel_ok done with ⟨draft, found, uncancelled, rfl⟩
      have updated : v.Follows (v.updateDraft id (InvoiceDraft.cancelled reason)) := by
        apply Bills.Follows.updateDraft
        intro draft' _
        refine ⟨rfl, rfl, rfl, fun impossible => ?_⟩
        cases impossible
      exact updated
  | sync id covered =>
      cases done
      exact Bills.Follows.updateDraft (fun draft _ => follows_synced covered draft)

/-! ## Runs -/

/-- Where a firm's books may start. -/
structure Establishment where
  firm : Firm
  keyed : firm.Keyed
  distinct : firm.contracts.Distinct

/-- What holds of an office whatever it does. -/
structure Office.Orderly (o : Office) : Prop where
  sound : o.Sound
  keyed : o.firm.Keyed
  distinct : o.firm.contracts.Distinct

theorem Establishment.orderly (start : Establishment) : (Office.start start.firm).Orderly :=
  ⟨Office.sound_start start.firm, start.keyed, start.distinct⟩

theorem Office.firm_step (o : Office) (event : Event) :
    (o.step event).firm = o.firm ∨ ∃ request, event = .firm request ∧ (o.step event).firm = o.firm.step request := by
  cases event with
  | firm request => exact Or.inr ⟨request, rfl, rfl⟩
  | generate today => exact Or.inl (Office.firm_generate o today)
  | call call =>
      left
      have stepped : o.step (.call call) = o.called call := rfl
      rw [stepped]
      unfold Office.called
      split
      · rfl
      · rfl

theorem Office.Orderly.step {o : Office} (orderly : o.Orderly) (event : Event) : (o.step event).Orderly := by
  refine ⟨(orderly.sound.step event).1, ?_, ?_⟩
  · rcases Office.firm_step o event with same | ⟨request, _, moved⟩
    · rw [same]
      exact orderly.keyed
    · rw [moved]
      exact orderly.keyed.step request
  · rcases Office.firm_step o event with same | ⟨request, _, moved⟩
    · rw [same]
      exact orderly.distinct
    · rw [moved]
      exact Fleet.Firm.distinct_step orderly.keyed orderly.distinct request

theorem daysOnce_step {o : Office} {event : Event} (orderly : o.Orderly) (aligned : o.aligned event = true)
    (once : o.bills.DaysOnce) : (o.step event).bills.DaysOnce := by
  cases event with
  | firm request => exact once
  | generate today => exact daysOnce_generate orderly.sound orderly.distinct aligned once
  | call call =>
      have stepped : o.step (.call call) = o.called call := rfl
      rw [stepped]
      cases done : call.commit o.bills o.nextId with
      | error failure =>
          rw [Office.called_of_error done]
          exact once
      | ok bills =>
          rw [Office.called_of_ok done]
          replace done := (commit_ok.mp done).1
          have sound : o.bills.Sound o.nextId := orderly.sound
          exact (follows_call sound done).daysOnce (sound.call done).1.tallied.drafts once

theorem aligned_of_step {o : Office} {event : Event} (orderly : o.Orderly)
    (once : (o.step event).bills.DaysOnce) : o.aligned event = true := by
  cases event with
  | firm request => rfl
  | generate today => exact aligned_of_daysOnce orderly.sound orderly.distinct once
  | call call => rfl

/-- The periods of a contract's live drafts share no day, in every state of a run,
exactly if the generator only ever runs when no due period it would draft shares
a day with one of them, or is rolled back. -/
theorem days_billed_once (start : Establishment) (events : List Event) :
    (∀ before, before <+: events -> (reached start.firm before).bills.DaysOnce) ↔
      everyStep Office.step Office.aligned (Office.start start.firm) events = true := by
  constructor
  · intro law
    exact Transitions.everyStep_of_law (J := Office.Orderly) (L := fun o => o.bills.DaysOnce)
      (fun _ event _ orderly => orderly.step event) (fun _ _ orderly once => aligned_of_step orderly once)
      start.orderly law
  · rintro aligned before ⟨after, rfl⟩
    have sofar := (Transitions.everyStep_append.mp aligned).1
    have both := Transitions.run_invariant_of_everyStep
      (J := fun (o : Office) => o.Orderly ∧ o.bills.DaysOnce)
      (fun o event here now => ⟨now.1.step event, daysOnce_step now.1 here now.2⟩) sofar
      ⟨start.orderly, by
        intro r mem
        cases mem⟩
    exact both.2

/-- A contract billed by the quarter from January 2026 on. -/
def byQuarter : Establishment where
  firm := {
    contracts := [(0, {
      customer := 0, status := .active, scope := .maintenanceOnly, startDate := .first 24312
      endDate := (Date.first 24324).previous, pricingType := .flat, monthlyFee := some 100000
      currency := "TRY", vatRate := some 2000, billingPeriod := .quarterly, autoRenew := false
      renewalNoticeDays := 60, previousContract := none, terminatedAt := none, terminationReason := ""
      notes := "" })]
    lines := [], elevators := [], inspections := [], faults := [], nextId := 1 }
  keyed := by
    apply Fleet.Firm.keyed_contracts
    intro id here
    rcases Option.isSome_iff_exists.mp here with ⟨row, found⟩
    have same := congrArg Prod.fst (List.mem_singleton.mp (Rows.mem_of_get? found))
    dsimp only at same ⊢
    omega
  distinct := by decide

/-- The first quarter is drafted, and the contract is billed by the month from then on. -/
def regrouped : List Event :=
  [.generate (.first 24315),
    .firm (.editContract 0 ⟨none, none, none, none, none, none, none, none, none, some .monthly, none, none, none⟩),
    .generate (.first 24315)]

/-- February and March are on two drafts. -/
theorem month_billed_twice : ¬ (reached byQuarter.firm regrouped).bills.DaysOnce := by
  intro once
  have drafts : ((reached byQuarter.firm regrouped).bills.drafts.map (fun r =>
      (r.1, r.2.contract, r.2.isLive, r.2.periodStart, r.2.periodEnd))) =
      [(0, 0, true, .first 24312, (Date.first 24315).previous),
        (2, 0, true, .first 24313, (Date.first 24314).previous),
        (4, 0, true, .first 24314, (Date.first 24315).previous)] := by decide +kernel
  have quarter := List.mem_map.mp (drafts ▸ List.mem_cons_self)
  have february := List.mem_map.mp (drafts ▸ List.mem_cons_of_mem _ List.mem_cons_self)
  rcases quarter with ⟨r, mem, row⟩
  rcases february with ⟨s, mem', row'⟩
  simp only [Prod.mk.injEq] at row row'
  rcases row with ⟨key, on, live, start, finish⟩
  rcases row' with ⟨key', on', live', start', finish'⟩
  have one := once r mem s mem' live live' (on.trans on'.symm) (.first 24313)
    (by
      unfold InvoiceDraft.covers
      rw [start, finish]
      decide +kernel)
    (by
      unfold InvoiceDraft.covers
      rw [start', finish']
      decide +kernel)
  rw [one, key'] at key
  cases key

end Billing
end Shiftlush
