import Shiftlush.Billing.Charges
import Shiftlush.Billing.ContractScreen

namespace Shiftlush
namespace Billing

open Calendar (Date)
open Fleet (Contract Firm)
open Transitions (run everyStep)

/-!
# Days charged once

Nothing compares the fee lines of one contract with those of another.  A contract line
is billed up to and with the day it ends, and a renewed contract up to its last day; a
lift that goes over on that day, or a flat-priced contract that is renewed before it
ends, is charged by both.
-/

/-! ## What a run leaves on the books -/

theorem get?_placed {draft k : Nat} {line : InvoiceLine} {lines : List InvoiceLine} (listed : lines[k]? = some line) :
    (placed draft lines).get? (draft + 1 + k) = some { line with draft := draft, position := k } := by
  rcases List.getElem?_eq_some_iff.mp listed with ⟨short, rfl⟩
  apply Rows.get?_of_mem distinct_placed
  exact List.mem_mapIdx.mpr ⟨k, short, rfl⟩

theorem live_feeLines {s : Firm} {id : Nat} {contract : Contract} {period : Period} {line : InvoiceLine}
    (mem : line ∈ feeLines s id contract period) : line.isLive = true := by
  unfold feeLines at mem
  split at mem
  · rw [List.mem_singleton.mp mem]
    rfl
  · rcases List.mem_map.mp mem with ⟨r, _, rfl⟩
    rfl

/-- A draft of a run, with its fee lines. -/
structure Drafted (o : Office) (today : Date) (v : Bills) (r : Nat × InvoiceDraft) (r' : Nat × Contract)
    (period : Period) : Prop where
  missing : Missing o today r' period
  row : r.2.For r'.1 period
  lines : ∀ k < (feeLines o.firm r'.1 r'.2 period).length, ∃ line, v.lines.get? (r.1 + 1 + k) = some line ∧
    line.isLive = true ∧ line.draft = r.1

/-- The books after some drafts of a run. -/
structure Grown (o : Office) (today : Date) (o' : Office) : Prop where
  sound : o'.Sound
  firm : o'.firm = o.firm
  later : o.nextId ≤ o'.nextId
  drafts : ∀ key < o.nextId, o'.bills.drafts.get? key = o.bills.drafts.get? key
  lines : ∀ key < o.nextId, o'.bills.lines.get? key = o.bills.lines.get? key
  kept : ∀ r ∈ o.bills.drafts, r ∈ o'.bills.drafts
  drafted : ∀ r ∈ o'.bills.drafts, o.nextId ≤ r.1 -> ∃ r' period, Drafted o today o'.bills r r' period
  one : ∀ r ∈ o'.bills.drafts, ∀ s ∈ o'.bills.drafts, o.nextId ≤ r.1 -> o.nextId ≤ s.1 ->
    r.2.contract = s.2.contract -> r.2.periodStart = s.2.periodStart -> r = s

section Growing

variable {o o' : Office} {today : Date}

theorem Grown.refl (sound : o.Sound) : Grown o today o where
  sound := sound
  firm := rfl
  later := Nat.le_refl _
  drafts _ _ := rfl
  lines _ _ := rfl
  kept _ mem := mem
  drafted _ mem new := absurd (sound.drafts.of_mem mem) (not_lt.mpr new)
  one _ mem _ _ new := absurd (sound.drafts.of_mem mem) (not_lt.mpr new)

/-- One more draft of the run. -/
theorem Grown.draftFor (grown : Grown o today o') {r : Nat × Contract} {vatRate : Int} {period : Period}
    (due : Due o.firm today r period) : Grown o today (o'.draftFor r.1 r.2 vatRate period) := by
  cases free : o'.bills.periodTaken r.1 period.start with
  | true =>
      rw [Office.draftFor_of_taken free]
      exact grown
  | false =>
      have untaken : o.bills.periodTaken r.1 period.start = false := by
        rw [← Bool.not_eq_true] at free ⊢
        exact fun taken => free (periodTaken_mono grown.kept taken)
      rcases drafts_draftFor r.2 vatRate grown.sound free with ⟨draft, row, drafts⟩
      have lines := lines_draftFor_eq r.2 vatRate free
      have stays {key : Nat} {line : InvoiceLine} (found : o'.bills.lines.get? key = some line) :
          (o'.draftFor r.1 r.2 vatRate period).bills.lines.get? key = some line := by
        rw [lines, Rows.get?_append, found, Option.some_or]
      have new : Drafted o today (o'.draftFor r.1 r.2 vatRate period).bills (o'.nextId, draft) r period := by
        refine ⟨⟨due, untaken⟩, row, ?_⟩
        intro k short
        have fee : (o'.newLines r.1 r.2 period)[k]? = some (feeLines o.firm r.1 r.2 period)[k] := by
          unfold Office.newLines
          rw [grown.firm, List.getElem?_append_left short]
          exact List.getElem?_eq_getElem short
        refine ⟨{ (feeLines o.firm r.1 r.2 period)[k] with draft := o'.nextId, position := k }, ?_, ?_, rfl⟩
        · rw [lines, Rows.get?_append, grown.sound.lines.absent (by omega), Option.none_or]
          exact get?_placed fee
        · have live := live_feeLines (List.getElem_mem short)
          exact live
      have fresh {s : Nat × InvoiceDraft} (mem : s ∈ o'.bills.drafts) (since : o.nextId ≤ s.1)
          (same : s.2.contract = draft.contract) (start : s.2.periodStart = draft.periodStart) : False := by
        rcases grown.drafted s mem since with ⟨_, _, drafted⟩
        have taken : o'.bills.periodTaken r.1 period.start = true := periodTaken_iff.mpr
          ⟨s, mem, same.trans row.contract, start.trans row.start, drafted.row.live⟩
        rw [free] at taken
        cases taken
      refine ⟨grown.sound.draftFor, ?_, ?_, ?_, ?_, ?_, ?_, ?_⟩
      · exact (Office.firm_draftFor o' _ _ _ _).trans grown.firm
      · have later := grown.later
        rw [Office.draftFor_of_free free]
        dsimp only
        omega
      · intro key before
        have later := grown.later
        rw [drafts, Rows.get?_insert_of_ne (by omega)]
        exact grown.drafts key before
      · intro key before
        have later := grown.later
        have absent : (placed o'.nextId (o'.newLines r.1 r.2 period)).get? key = none := by
          rw [Rows.get?_eq_none]
          intro line mem
          rcases mem_placed mem with ⟨k, _, _, _, same⟩
          have key' := congrArg Prod.fst same
          dsimp only at key'
          omega
        rw [lines, Rows.get?_append, absent, Option.or_none]
        exact grown.lines key before
      · intro s mem
        exact drafts_kept grown.sound s (grown.kept s mem)
      · intro s mem since
        rw [drafts] at mem
        rcases List.mem_append.mp mem with old | last
        · rcases grown.drafted s old since with ⟨r', q, drafted⟩
          refine ⟨r', q, drafted.missing, drafted.row, ?_⟩
          intro k short
          rcases drafted.lines k short with ⟨line, found, live, on⟩
          exact ⟨line, stays found, live, on⟩
        · rw [List.mem_singleton.mp last]
          exact ⟨r, period, new⟩
      · intro s mem s' mem' since since' same start
        rw [drafts] at mem mem'
        rcases List.mem_append.mp mem with old | last <;> rcases List.mem_append.mp mem' with old' | last'
        · exact grown.one s old s' old' since since' same start
        · rw [List.mem_singleton.mp last'] at same start
          exact (fresh old since same start).elim
        · rw [List.mem_singleton.mp last] at same start
          exact (fresh old' since' same.symm start.symm).elim
        · rw [List.mem_singleton.mp last, List.mem_singleton.mp last']

theorem grown_generate (sound : o.Sound) (today : Date) : Grown o today (o.generate today) :=
  generate_due (fun _ _ _ _ due grown => grown.draftFor due) (Grown.refl sound)

end Growing

/-! ## What a run charges -/

theorem missing_listed {o : Office} {today : Date} {r : Nat × Contract} {period : Period}
    (missing : Missing o today r period) : r ∈ o.firm.contracts := by
  have billed := missing.1.1
  unfold Office.billedContracts at billed
  rw [List.mem_insertionSort] at billed
  exact (List.mem_filter.mp billed).1

theorem mem_coming {o : Office} {today : Date} {m : Coming} : m ∈ o.coming today ↔ ∃ r period,
    Missing o today r period ∧ ∃ t ∈ feeStretches o.firm r.1 r.2 period.days, m = ⟨r.1, period.start, t⟩ := by
  unfold Office.coming Missing Due Office.missingPeriods
  simp only [List.mem_flatMap, List.mem_filter, List.mem_map, Option.isSome_iff_ne_none, Bool.not_eq_true']
  constructor
  · rintro ⟨r, ⟨billed, rated⟩, period, ⟨due, untaken⟩, t, charged, rfl⟩
    exact ⟨r, period, ⟨⟨billed, rated, due⟩, untaken⟩, t, charged, rfl⟩
  · rintro ⟨r, period, ⟨⟨billed, rated, due⟩, untaken⟩, t, charged, rfl⟩
    exact ⟨r, ⟨billed, rated⟩, period, ⟨due, untaken⟩, t, charged, rfl⟩

section Drafted

variable {o : Office} {today : Date} {v : Bills} {r : Nat × InvoiceDraft} {r' : Nat × Contract} {period : Period}

theorem chargesOf_drafted (distinct : o.firm.contracts.Distinct) (drafted : Drafted o today v r r' period) :
    chargesOf o.firm r = (feeStretches o.firm r'.1 r'.2 period.days).map (chargeOf r.1) := by
  have found : o.firm.contracts.get? r.2.contract = some r'.2 := by
    rw [drafted.row.contract]
    exact Rows.get?_of_mem distinct (missing_listed drafted.missing)
  unfold chargesOf
  rw [found, drafted.row.contract, drafted.row.start, drafted.row.finish]
  rfl

/-- What it charges it charges on lines that stand. -/
theorem isCharging_drafted (drafted : Drafted o today v r r' period) (distinct : v.drafts.Distinct) (mem : r ∈ v.drafts)
    {t : Stretch} (charged : t ∈ feeStretches o.firm r'.1 r'.2 period.days) :
    v.isCharging (chargeOf r.1 t).line = true := by
  rcases drafted.lines t.place (place_lt charged) with ⟨line, found, live, on⟩
  have listed : v.drafts.get? line.draft = some r.2 := by
    rw [on]
    exact Rows.get?_of_mem distinct mem
  unfold Bills.isCharging chargeOf
  rw [found, Option.any_some, live, listed, Option.any_some, drafted.row.live]
  rfl

/-- One draft has a line. -/
theorem draft_unique {s : Nat × InvoiceDraft} {s' : Nat × Contract} {period' : Period}
    (drafted : Drafted o today v r r' period) (drafted' : Drafted o today v s s' period')
    {t t' : Stretch} (charged : t ∈ feeStretches o.firm r'.1 r'.2 period.days)
    (charged' : t' ∈ feeStretches o.firm s'.1 s'.2 period'.days)
    (same : (chargeOf r.1 t).line = (chargeOf s.1 t').line) : r.1 = s.1 := by
  rcases drafted.lines t.place (place_lt charged) with ⟨line, found, _, on⟩
  rcases drafted'.lines t'.place (place_lt charged') with ⟨line', found', _, on'⟩
  have lines : r.1 + 1 + t.place = s.1 + 1 + t'.place := same
  rw [lines, found'] at found
  rw [← on, ← on', Option.some.inj found]

end Drafted

/-! ## The journal over a step -/

theorem mem_charges_step {j : Journal} {event : Event} {c : Charge} : c ∈ (j.step event).charges ↔ c ∈ j.charges ∨
    ∃ r ∈ (j.office.step event).bills.drafts, j.office.nextId ≤ r.1 ∧ c ∈ chargesOf j.office.firm r := by
  unfold Journal.step
  simp only [List.mem_append, List.mem_flatMap, List.mem_filter, decide_eq_true_eq, and_assoc]

/-- What holds of a journal whatever happens. -/
structure Journal.Sound (j : Journal) : Prop where
  orderly : j.office.Orderly
  filed : j.office.bills.Filed
  past : ∀ c ∈ j.charges, c.line < j.office.nextId

section Runs

variable {j : Journal} {today : Date}

/-- The lines and drafts there were stand as they did. -/
theorem isCharging_generate (sound : j.Sound) {line : Nat} (past : line < j.office.nextId) :
    (j.office.generate today).bills.isCharging line = j.office.bills.isCharging line := by
  have grown := grown_generate sound.orderly.sound today
  unfold Bills.isCharging
  rw [grown.lines line past]
  cases found : j.office.bills.lines.get? line with
  | none => rfl
  | some row =>
      have filed := sound.filed (line, row) (Rows.mem_of_get? found)
      rcases List.mem_map.mp filed with ⟨d, listed, same⟩
      have before : row.draft < j.office.nextId := same ▸ sound.orderly.sound.drafts.of_mem listed
      rw [Option.any_some, Option.any_some, grown.drafts row.draft before]

/-- Each charge of a run was coming, and stands. -/
theorem coming_of_charge (sound : j.Sound) {r : Nat × InvoiceDraft} (mem : r ∈ (j.office.generate today).bills.drafts)
    (since : j.office.nextId ≤ r.1) {c : Charge} (charged : c ∈ chargesOf j.office.firm r) :
    ∃ r' period, Drafted j.office today (j.office.generate today).bills r r' period ∧
      ∃ t ∈ feeStretches j.office.firm r'.1 r'.2 period.days, c = chargeOf r.1 t := by
  rcases (grown_generate sound.orderly.sound today).drafted r mem since with ⟨r', period, drafted⟩
  rw [chargesOf_drafted sound.orderly.distinct drafted] at charged
  rcases List.mem_map.mp charged with ⟨t, listed, rfl⟩
  exact ⟨r', period, drafted, t, listed, rfl⟩

/-- Each that was coming is charged, unless the run is rolled back. -/
theorem charge_of_coming (sound : j.Sound) (fits : j.office.overflows today = false) {r' : Nat × Contract} {period : Period}
    (missing : Missing j.office today r' period) : ∃ r ∈ (j.office.generate today).bills.drafts,
      j.office.nextId ≤ r.1 ∧ Drafted j.office today (j.office.generate today).bills r r' period := by
  have grown := grown_generate sound.orderly.sound today
  rcases periodTaken_iff.mp (taken_generate sound.orderly.sound fits missing.1) with ⟨r, mem, own, start, live⟩
  have since : j.office.nextId ≤ r.1 := by
    by_contra earlier
    have before : j.office.bills.drafts.get? r.1 = some r.2 := by
      rw [← grown.drafts r.1 (not_le.mp earlier)]
      exact Rows.get?_of_mem grown.sound.tallied.drafts mem
    have taken : j.office.bills.periodTaken r'.1 period.start = true :=
      periodTaken_iff.mpr ⟨r, Rows.mem_of_get? before, own, start, live⟩
    rw [missing.2] at taken
    cases taken
  refine ⟨r, mem, since, ?_⟩
  rcases grown.drafted r mem since with ⟨s', q, drafted⟩
  have contract := billed_unique sound.orderly.distinct drafted.missing.1.1 missing.1.1
    (drafted.row.contract.symm.trans own)
  subst contract
  have same := period_of_start (mem_periods_of_due drafted.missing.1.2.2) (mem_periods_of_due missing.1.2.2)
    (drafted.row.start.symm.trans start)
  rw [← same]
  exact drafted

end Runs

/-! ## The condition -/

theorem apart_iff {subject subject' : Subject} {days days' : Date × Date} : apart subject subject' days days' = true ↔
    (subject = subject' -> ∀ day, ¬ (within day days ∧ within day days')) := by
  unfold apart within
  rw [Bool.or_eq_true, decide_eq_true_eq, decide_eq_true_eq, overlapDays_eq_zero]
  by_cases same : subject = subject'
  · simp [same]
  · simp [same]

theorem isBeside_iff {m m' : Coming} : m.isBeside m' = true ↔
    m.contract = m'.contract ∧ m.start = m'.start ∧ m.stretch.place = m'.stretch.place := by
  unfold Coming.isBeside
  rw [decide_eq_true_eq]

theorem separate_iff {j : Journal} {today : Date} (fits : j.office.overflows today = false) :
    j.separate (.generate today) = true ↔
    ∀ m ∈ j.office.coming today,
      (∀ m' ∈ j.office.coming today, m.stretch.subject = m'.stretch.subject ->
        ∀ day, within day m.stretch.days -> within day m'.stretch.days -> m.isBeside m' = true) ∧
      ∀ c ∈ j.charges, j.office.bills.isCharging c.line = true -> m.stretch.subject = c.subject ->
        ∀ day, within day m.stretch.days -> ¬ within day c.days := by
  unfold Journal.separate
  simp only [fits, Bool.false_or, List.all_eq_true, Bool.and_eq_true, Bool.or_eq_true, Bool.not_eq_true', apart_iff]
  constructor
  · intro holds m mem
    rcases holds m mem with ⟨others, charged⟩
    refine ⟨?_, ?_⟩
    · intro m' mem' same day here here'
      rcases others m' mem' with beside | apart
      · exact beside
      · exact absurd ⟨here, here'⟩ (apart same day)
    · intro c listed stands same day here here'
      rcases charged c listed with fallen | apart
      · rw [stands] at fallen
        cases fallen
      · exact apart same day ⟨here, here'⟩
  · intro holds m mem
    rcases holds m mem with ⟨others, charged⟩
    refine ⟨?_, ?_⟩
    · intro m' mem'
      by_cases beside : m.isBeside m' = true
      · exact Or.inl beside
      · right
        rintro same day ⟨here, here'⟩
        exact beside (others m' mem' same day here here')
    · intro c listed
      cases stands : j.office.bills.isCharging c.line with
      | false => exact Or.inl rfl
      | true =>
          right
          rintro same day ⟨here, here'⟩
          exact charged c listed stands same day here here'

section Runs

variable {j : Journal} {today : Date}

/-- What is coming in one place is charged on one line. -/
theorem line_eq_of_isBeside (sound : j.Sound) {r s : Nat × InvoiceDraft} {r' s' : Nat × Contract} {period period' : Period}
    (mem : r ∈ (j.office.generate today).bills.drafts) (mem' : s ∈ (j.office.generate today).bills.drafts)
    (since : j.office.nextId ≤ r.1) (since' : j.office.nextId ≤ s.1)
    (drafted : Drafted j.office today (j.office.generate today).bills r r' period)
    (drafted' : Drafted j.office today (j.office.generate today).bills s s' period') {t t' : Stretch}
    (beside : Coming.isBeside ⟨r'.1, period.start, t⟩ ⟨s'.1, period'.start, t'⟩ = true) :
    (chargeOf r.1 t).line = (chargeOf s.1 t').line := by
  rcases isBeside_iff.mp beside with ⟨contract, start, place⟩
  have grown := grown_generate sound.orderly.sound today
  have same := grown.one r mem s mem' since since'
    (drafted.row.contract.trans (contract.trans drafted'.row.contract.symm))
    (drafted.row.start.trans (start.trans drafted'.row.start.symm))
  unfold chargeOf
  dsimp only at place ⊢
  rw [same, place]

/-- A separate run charges no day twice. -/
theorem chargedOnce_generate (sound : j.Sound) (fits : j.office.overflows today = false)
    (separate : j.separate (.generate today) = true) (once : j.ChargedOnce) :
    (j.step (.generate today)).ChargedOnce := by
  have holds := (separate_iff fits).mp separate
  have standing {c : Charge} (listed : c ∈ j.charges)
      (stands : (j.office.generate today).bills.isCharging c.line = true) : j.office.bills.isCharging c.line = true :=
    (isCharging_generate sound (sound.past c listed)).symm.trans stands
  intro c mem c' mem' stands stands' same day here here'
  rcases mem_charges_step.mp mem with old | ⟨r, drafted, since, charged⟩
  · rcases mem_charges_step.mp mem' with old' | ⟨s, drafted', since', charged'⟩
    · exact once c old c' old' (standing old stands) (standing old' stands') same day here here'
    · rcases coming_of_charge sound drafted' since' charged' with ⟨s', q, new', t', listed', rfl⟩
      have apart := (holds _ (mem_coming.mpr ⟨s', q, new'.missing, t', listed', rfl⟩)).2 c old (standing old stands)
      exact absurd here (apart same.symm day here')
  · rcases coming_of_charge sound drafted since charged with ⟨r', p, new, t, listed, rfl⟩
    have apart := holds _ (mem_coming.mpr ⟨r', p, new.missing, t, listed, rfl⟩)
    rcases mem_charges_step.mp mem' with old' | ⟨s, drafted', since', charged'⟩
    · exact absurd here' (apart.2 c' old' (standing old' stands') same day here)
    · rcases coming_of_charge sound drafted' since' charged' with ⟨s', q, new', t', listed', rfl⟩
      have beside := apart.1 _ (mem_coming.mpr ⟨s', q, new'.missing, t', listed', rfl⟩) same day here here'
      exact line_eq_of_isBeside sound drafted drafted' since since' new new' beside

/-- A run that charges no day twice was separate. -/
theorem separate_of_chargedOnce (sound : j.Sound) (fits : j.office.overflows today = false)
    (once : (j.step (.generate today)).ChargedOnce) : j.separate (.generate today) = true := by
  have grown := grown_generate sound.orderly.sound today
  have distinct := grown.sound.tallied.drafts
  rw [separate_iff fits]
  intro m mem
  rcases mem_coming.mp mem with ⟨r', p, missing, t, listed, rfl⟩
  rcases charge_of_coming sound fits missing with ⟨r, drafted, since, new⟩
  have charged : chargeOf r.1 t ∈ (j.step (.generate today)).charges := by
    refine mem_charges_step.mpr (Or.inr ⟨r, drafted, since, ?_⟩)
    rw [chargesOf_drafted sound.orderly.distinct new]
    exact List.mem_map_of_mem listed
  have stands := isCharging_drafted new distinct drafted listed
  refine ⟨?_, ?_⟩
  · intro m' mem' same day here here'
    rcases mem_coming.mp mem' with ⟨s', q, missing', t', listed', rfl⟩
    rcases charge_of_coming sound fits missing' with ⟨s, drafted', since', new'⟩
    have charged' : chargeOf s.1 t' ∈ (j.step (.generate today)).charges := by
      refine mem_charges_step.mpr (Or.inr ⟨s, drafted', since', ?_⟩)
      rw [chargesOf_drafted sound.orderly.distinct new']
      exact List.mem_map_of_mem listed'
    have line := once _ charged _ charged' stands (isCharging_drafted new' distinct drafted' listed') same day here here'
    have draft := draft_unique new new' listed listed' line
    have one := Rows.unique distinct drafted drafted' draft
    subst one
    refine isBeside_iff.mpr ⟨new.row.contract.symm.trans new'.row.contract, new.row.start.symm.trans new'.row.start, ?_⟩
    unfold chargeOf at line
    dsimp only at line ⊢
    omega
  · intro c old standing same day here here'
    have past := sound.past c old
    have line := once _ charged c (mem_charges_step.mpr (Or.inl old)) stands
      ((isCharging_generate sound past).trans standing) same day here here'
    unfold chargeOf at line
    dsimp only at line
    omega

end Runs

/-! ## Everything else -/

/-- A call leaves a line on its draft, and brings none back. -/
theorem lines_call {v v' : Bills} {bound : Nat} {call : Call} (done : call.attempt v bound = .ok v') {key : Nat}
    (past : key < bound) {after : InvoiceLine} (found : v'.lines.get? key = some after) :
    ∃ before, v.lines.get? key = some before ∧ after.draft = before.draft ∧
      (after.isLive = true -> before.isLive = true) := by
  have updated {id : Nat} {f : InvoiceLine -> InvoiceLine} {w : Bills}
      (lines : w.lines = v.lines.update id f) (listed : w.lines.get? key = some after)
      (wanes : ∀ line, v.lines.get? id = some line -> (f line).draft = line.draft ∧ ((f line).isLive = true -> line.isLive = true)) :
      ∃ before, v.lines.get? key = some before ∧ after.draft = before.draft ∧
        (after.isLive = true -> before.isLive = true) := by
    rw [lines, Rows.get?_update] at listed
    split at listed
    · rename_i here
      subst here
      rcases Option.map_eq_some_iff.mp listed with ⟨before, there, rfl⟩
      exact ⟨before, there, wanes before there⟩
    · exact ⟨after, listed, rfl, fun live => live⟩
  cases call with
  | addLine draft new =>
      rcases addLine_ok done with ⟨row, _, _, rfl⟩
      have other : bound ≠ key := by omega
      rw [lines_recompute] at found
      exact ⟨after, (Rows.get?_insert_of_ne other).symm.trans found, rfl, fun live => live⟩
  | editLine id changes =>
      rcases editLine_ok done with ⟨line, _, listed, live, _, _, rfl⟩
      refine updated (lines_recompute _ _) found ?_
      intro current there
      rw [listed] at there
      rw [← Option.some.inj there]
      exact ⟨rfl, fun _ => live⟩
  | removeLine id =>
      rcases removeLine_ok done with ⟨line, _, _, live, _, _, rfl⟩
      refine updated (lines_recompute _ _) found ?_
      intro current _
      exact ⟨rfl, fun impossible => by cases impossible⟩
  | issue id number date posts =>
      rcases issue_ok done with ⟨draft, _, _, _, rfl⟩
      have same : (v.recompute id).lines.get? key = some after := found
      rw [lines_recompute] at same
      exact ⟨after, same, rfl, fun live => live⟩
  | markPaid id settles =>
      rcases markPaid_ok done with ⟨draft, _, _, rfl⟩
      exact ⟨after, found, rfl, fun live => live⟩
  | cancel id reason reverses =>
      rcases cancel_ok done with ⟨draft, _, _, rfl⟩
      rw [releaseFaults_lines, Rows.get?_map] at found
      · rcases Option.map_eq_some_iff.mp found with ⟨before, listed, rfl⟩
        refine ⟨before, listed, ?_⟩
        split
        · have draft := draft_giveBack (key, before)
          have live := isLive_giveBack (key, before)
          exact ⟨draft, fun stands => live.symm.trans stands⟩
        · exact ⟨rfl, fun live => live⟩
      · intro r
        split
        · exact key_giveBack r
        · rfl
  | sync id covered =>
      cases done
      exact ⟨after, found, rfl, fun live => live⟩

/-- Nothing but a run makes a line charge. -/
theorem isCharging_call {v v' : Bills} {bound : Nat} (sound : v.Sound bound) {call : Call}
    (done : call.attempt v bound = .ok v') {line : Nat} (past : line < bound) (stands : v'.isCharging line = true) :
    v.isCharging line = true := by
  rcases isCharging_iff.mp stands with ⟨after, draft, found, live, drafted, standing⟩
  rcases lines_call done past found with ⟨before, listed, on, lived⟩
  rcases follows_call sound done _ (Rows.mem_of_get? drafted) with ⟨r, mem, key, follows⟩
  have there : v.drafts.get? before.draft = some r.2 := by
    have here : r.1 = after.draft := key
    rw [← on, ← here]
    exact Rows.get?_of_mem sound.tallied.drafts mem
  exact isCharging_iff.mpr ⟨before, r.2, listed, lived live, there, follows.live standing⟩

/-- Nothing but a run charges anything. -/
theorem charges_step_of_keys {j : Journal} {event : Event} (below : j.office.bills.drafts.Below j.office.nextId)
    (keys : (j.office.step event).bills.drafts.map Prod.fst = j.office.bills.drafts.map Prod.fst) :
    (j.step event).charges = j.charges := by
  have none : (j.office.step event).bills.drafts.filter (fun r => decide (j.office.nextId ≤ r.1)) = [] := by
    rw [List.filter_eq_nil_iff]
    intro r mem since
    have listed : r.1 ∈ j.office.bills.drafts.map Prod.fst := keys ▸ List.mem_map_of_mem mem
    rcases List.mem_map.mp listed with ⟨s, before, same⟩
    have past := below.of_mem before
    rw [same] at past
    exact absurd past (not_lt.mpr (of_decide_eq_true since))
  unfold Journal.step
  rw [none, List.flatMap_nil, List.append_nil]

/-- Where nothing is charged and no line comes to stand, the law is kept. -/
theorem Journal.ChargedOnce.of_wanes {j : Journal} {event : Event} (sound : j.Sound) (once : j.ChargedOnce)
    (same : (j.step event).charges = j.charges)
    (wanes : ∀ line < j.office.nextId, (j.office.step event).bills.isCharging line = true ->
      j.office.bills.isCharging line = true) : (j.step event).ChargedOnce := by
  intro c mem c' mem' stands stands'
  rw [same] at mem mem'
  exact once c mem c' mem' (wanes c.line (sound.past c mem) stands) (wanes c'.line (sound.past c' mem') stands')

/-! ## Runs -/

theorem Journal.sound_start (start : Establishment) : (Journal.start start.firm).Sound where
  orderly := start.orderly
  filed := by
    intro r mem
    cases mem
  past := by
    intro c mem
    cases mem

theorem Journal.Sound.step {j : Journal} (sound : j.Sound) (event : Event) : (j.step event).Sound := by
  refine ⟨sound.orderly.step event, filed_step sound.orderly.sound sound.filed event, ?_⟩
  have office : (j.step event).office = j.office.step event := rfl
  intro c mem
  rw [office]
  cases event with
  | firm request =>
      rw [charges_step_of_keys sound.orderly.sound.drafts rfl] at mem
      exact sound.past c mem
  | generate today =>
      have grown := grown_generate sound.orderly.sound today
      rcases mem_charges_step.mp mem with old | ⟨r, drafted, since, charged⟩
      · exact (sound.past c old).trans_le grown.later
      · rcases coming_of_charge sound drafted since charged with ⟨r', period, new, t, listed, rfl⟩
        rcases new.lines t.place (place_lt listed) with ⟨line, found, _, _⟩
        exact grown.sound.lines.of_mem (Rows.mem_of_get? found)
  | call call =>
      have stepped : j.office.step (.call call) = j.office.called call := rfl
      cases done : call.commit j.office.bills j.office.nextId with
      | error failure =>
          have same : j.office.step (.call call) = j.office := stepped.trans (Office.called_of_error done)
          rw [charges_step_of_keys sound.orderly.sound.drafts (by rw [same])] at mem
          rw [same]
          exact sound.past c mem
      | ok bills =>
          have same := stepped.trans (Office.called_of_ok done)
          replace done := (commit_ok.mp done).1
          rw [charges_step_of_keys sound.orderly.sound.drafts (by rw [same]; exact keys_call done)] at mem
          rw [same]
          exact (sound.past c mem).trans (Nat.lt_succ_self _)

theorem chargedOnce_step {j : Journal} {event : Event} (sound : j.Sound) (separate : j.separate event = true)
    (once : j.ChargedOnce) : (j.step event).ChargedOnce := by
  cases event with
  | firm request =>
      exact once.of_wanes sound (charges_step_of_keys sound.orderly.sound.drafts rfl) (fun _ _ stands => stands)
  | generate today =>
      cases fits : j.office.overflows today with
      | false => exact chargedOnce_generate sound fits separate once
      | true =>
          have same : j.office.step (.generate today) = j.office := Office.generate_of_overflows fits
          apply once.of_wanes sound (charges_step_of_keys sound.orderly.sound.drafts (by rw [same]))
          rw [same]
          exact fun _ _ stands => stands
  | call call =>
      have stepped : j.office.step (.call call) = j.office.called call := rfl
      cases done : call.commit j.office.bills j.office.nextId with
      | error failure =>
          have same : j.office.step (.call call) = j.office := stepped.trans (Office.called_of_error done)
          apply once.of_wanes sound (charges_step_of_keys sound.orderly.sound.drafts (by rw [same]))
          rw [same]
          exact fun _ _ stands => stands
      | ok bills =>
          have same := stepped.trans (Office.called_of_ok done)
          replace done := (commit_ok.mp done).1
          apply once.of_wanes sound (charges_step_of_keys sound.orderly.sound.drafts (by rw [same]; exact keys_call done))
          rw [same]
          exact fun _ past stands => isCharging_call sound.orderly.sound done past stands

theorem separate_of_step {j : Journal} {event : Event} (sound : j.Sound) (once : (j.step event).ChargedOnce) :
    j.separate event = true := by
  cases event with
  | firm request => rfl
  | generate today =>
      cases fits : j.office.overflows today with
      | false => exact separate_of_chargedOnce sound fits once
      | true =>
          unfold Journal.separate
          dsimp only
          rw [fits, Bool.true_or]
  | call call => rfl

/-- No day of a lift is charged twice in any state of a run, exactly if the generator only ever
runs when the contract lines and flat contracts it is to charge share no day of a lift, with one
another and with what is charged already, or is rolled back. -/
theorem days_charged_once (start : Establishment) (events : List Event) :
    (∀ before, before <+: events -> (run Journal.step (Journal.start start.firm) before).ChargedOnce) ↔
      everyStep Journal.step Journal.separate (Journal.start start.firm) events = true := by
  constructor
  · intro law
    exact Transitions.everyStep_of_law (J := Journal.Sound) (L := Journal.ChargedOnce)
      (fun _ event _ sound => sound.step event) (fun _ _ sound once => separate_of_step sound once)
      (Journal.sound_start start) law
  · rintro separate before ⟨after, rfl⟩
    have sofar := (Transitions.everyStep_append.mp separate).1
    have both := Transitions.run_invariant_of_everyStep (J := fun (j : Journal) => j.Sound ∧ j.ChargedOnce)
      (fun j event here now => ⟨now.1.step event, chargedOnce_step now.1 here now.2⟩) sofar
      ⟨Journal.sound_start start, by
        intro c mem
        cases mem⟩
    exact both.2

/-- A contract of the year 2026, billed by the month. -/
def ofTheYear (pricingType : Fleet.PricingType) : Contract where
  customer := 0
  status := .active
  scope := .maintenanceOnly
  startDate := .first 24312
  endDate := (Date.first 24324).previous
  pricingType := pricingType
  monthlyFee := some 100000
  currency := "TRY"
  vatRate := some 2000
  billingPeriod := .monthly
  autoRenew := false
  renewalNoticeDays := 60
  previousContract := none
  terminatedAt := none
  terminationReason := ""
  notes := ""

/-- Two contracts priced by the lift, and a flat one. -/
def threeContracts : Establishment where
  firm := ⟨[(0, ofTheYear .perElevator), (1, ofTheYear .perElevator), (2, ofTheYear .flat)], [], [], [], [], 3⟩
  keyed := by
    apply Fleet.Firm.keyed_contracts
    intro id here
    rcases Option.isSome_iff_exists.mp here with ⟨row, found⟩
    have listed := List.mem_map_of_mem (f := Prod.fst) (Rows.mem_of_get? found)
    simp only [List.map_cons, List.map_nil, List.mem_cons, List.not_mem_nil, or_false] at listed
    omega
  distinct := by decide

/-- The nightly runs from a day on. -/
def nightly (day : Date) (nights : Nat) : List Event :=
  (List.range nights).map (fun k => .generate (day.addDays k))

/-- A lift goes over from one contract to the other on 15 January. -/
def movedLift : List Event :=
  let day := (Date.first 24312).addDays 14
  [.firm (.createElevator none), .firm (.addElevators 0 [3] (some 50000) (.first 24312))] ++
    nightly (.first 24312) 15 ++
    [.firm (.removeElevator 0 3 day), .firm (.addElevators 1 [3] (some 50000) day)] ++ nightly day.next 17

/-- The flat contract is renewed from 15 January on. -/
def renewedEarly : List Event :=
  let day := (Date.first 24312).addDays 14
  nightly (.first 24312) 15 ++
    [.firm (.renew 2 day (.first 24325) true true),
     .firm (.editContract 3 ⟨none, some .active, none, none, none, none, none, none, none, none, none, none, none⟩)] ++
    nightly day.next 31

/-- The day the lift goes over is charged by both contracts, and the rest of January by the flat one and its successor. -/
theorem day_charged_twice :
    ¬ (run Journal.step (Journal.start threeContracts.firm) movedLift).ChargedOnce ∧
      ¬ (run Journal.step (Journal.start threeContracts.firm) renewedEarly).ChargedOnce := by
  constructor
  · intro once
    have same := once ⟨1, .lift 3, (.first 24312, (Date.first 24312).addDays 14)⟩ (by decide +kernel)
      ⟨3, .lift 3, ((Date.first 24312).addDays 14, (Date.first 24313).previous)⟩ (by decide +kernel)
      (by decide +kernel) (by decide +kernel) rfl ((Date.first 24312).addDays 14) (by decide +kernel) (by decide +kernel)
    cases same
  · intro once
    have same := once ⟨3, .term 2, (.first 24312, (Date.first 24313).previous)⟩ (by decide +kernel)
      ⟨5, .term 2, ((Date.first 24312).addDays 14, (Date.first 24313).addDays 13)⟩ (by decide +kernel)
      (by decide +kernel) (by decide +kernel) rfl ((Date.first 24312).addDays 14) (by decide +kernel) (by decide +kernel)
    cases same

end Billing
end Shiftlush
