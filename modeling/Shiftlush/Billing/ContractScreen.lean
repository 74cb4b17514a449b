import Shiftlush.Billing.Amounts
import Shiftlush.Billing.EveryPeriod
import Mathlib.Algebra.BigOperators.Ring.List

namespace Shiftlush
namespace Billing

open Calendar (Date)
open Fleet (Contract ContractElevator Fault Firm)

/-!
# The contract screen and the bill

`ContractReadSerializer` sums the prices of a contract's open lines as they are.
The generator makes a line of each that covers a period, by the days it covers.
Where every line covers the whole period the two come to the same money.
-/

/-! ## `contracts.api.v1.serializers` -/

/-- `_subtotal`: "an open line with no price counts as zero". -/
def monthlySubtotal (s : Firm) (id : Nat) (contract : Contract) : Cents :=
  match contract.pricingType with
  | .flat => contract.monthlyFee.getD 0
  | .perElevator => ((s.lines.filter (fun r => decide (r.2.contract = id) && r.2.removedAt.isNone)).map
      (fun r => r.2.unitPrice.getD 0)).sum

/-- `get_vat_amount`: "rounded once, here, rather than per line". -/
def monthlyVat (s : Firm) (id : Nat) (contract : Contract) : Option Cents :=
  contract.vatRate.map (fun rate => roundHalfUp (monthlySubtotal s id contract * rate) 10000)

/-- `get_monthly_total`: "it refuses rather than computing the subtotal again". -/
def monthlyTotal (s : Firm) (id : Nat) (contract : Contract) : Option Cents :=
  (monthlyVat s id contract).map (fun vat => monthlySubtotal s id contract + vat)

/-! ## A period that is whole -/

/-- The period is not cut, each line of the contract is open for all of it or was closed
before it, and no fault is billed in it. -/
structure WholePeriod (o : Office) (id : Nat) (contract : Contract) (period : Period) : Prop where
  listed : period ∈ contractPeriods contract
  uncut : period.finish = period.nominalEnd
  lines : ∀ r ∈ o.firm.lines, r.2.contract = id -> (r.2.removedAt = none ∧ r.2.addedAt ≤ period.start) ∨
    ∃ day, r.2.removedAt = some day ∧ day < period.start
  quiet : billableFaults o.firm o.bills id period = []

/-- The draft bills what the screen shows for each of so many months. -/
structure AgreesWithScreen (s : Firm) (id : Nat) (contract : Contract) (draft : InvoiceDraft) : Prop where
  subtotal : draft.subtotal = months contract.billingPeriod * monthlySubtotal s id contract
  vatAmount : months contract.billingPeriod = 1 -> monthlyVat s id contract = some draft.vatAmount
  total : months contract.billingPeriod = 1 -> monthlyTotal s id contract = some draft.total

section Fees

variable {s : Firm} {id : Nat} {contract : Contract} {period : Period}

/-- A range covers all the days of a period it holds. -/
theorem overlapDays_of_within {low high : Date} (uncut : period.finish = period.nominalEnd) (from_ : low ≤ period.start)
    (to_ : period.finish ≤ high) : overlapDays (period.start, period.finish) (low, high) = period.nominalDays := by
  have ordered := Date.le_iff.mp period.ordered
  unfold overlapDays Period.nominalDays
  dsimp only
  rw [min_eq_left to_, max_eq_left from_, uncut]
  omega

theorem amount_prorated (kind : InvoiceLineKind) (elevator : Option Nat) (unitPrice : Option Cents) :
    (prorated kind elevator period period.nominalDays unitPrice).amount = unitPrice.getD 0 * period.months := by
  cases unitPrice with
  | none => exact (zero_mul _).symm
  | some unitPrice => exact proratedAmount_uncut rfl unitPrice

theorem months_of_mem (listed : period ∈ contractPeriods contract) : period.months = months contract.billingPeriod := by
  rcases mem_periods.mp listed with ⟨k, _, rfl⟩
  rfl

theorem nominalDays_pos (period : Period) : period.nominalDays ≠ 0 := Nat.succ_ne_zero _

variable {o : Office}

/-- The lines of the period are the open ones. -/
theorem openIn_whole (whole : WholePeriod o id contract period) {r : Nat × ContractElevator} (mem : r ∈ o.firm.lines) :
    openIn id period r = (decide (r.2.contract = id) && r.2.removedAt.isNone) := by
  unfold openIn
  by_cases own : r.2.contract = id
  · rcases whole.lines r mem own with ⟨stands, added⟩ | ⟨day, removed, before⟩
    · have start := start_le_finish whole.listed
      rw [stands, decide_eq_true ⟨own, added.trans start⟩, decide_eq_true own]
      rfl
    · rw [removed, Option.all_some, decide_eq_false (not_le.mpr before), Option.isNone_some, Bool.and_false, Bool.and_false]
  · rw [decide_eq_false own, decide_eq_false (fun both => own both.1), Bool.false_and, Bool.false_and]

/-- The fee lines bill the months of what the screen shows. -/
theorem sum_feeLines (whole : WholePeriod o id contract period) :
    ((feeLines o.firm id contract period).map InvoiceLine.amount).sum =
      months contract.billingPeriod * monthlySubtotal o.firm id contract := by
  have count := months_of_mem whole.listed
  unfold feeLines monthlySubtotal
  cases contract.pricingType with
  | flat =>
      have covered := overlapDays_of_within whole.uncut (startDate_le_start whole.listed)
        (finish_le_lastBilledDay whole.listed)
      dsimp only
      rw [covered, List.map_singleton, List.sum_singleton, amount_prorated, count, mul_comm]
  | perElevator =>
      dsimp only
      have lines : o.firm.lines.filter (openIn id period) =
          o.firm.lines.filter (fun r => decide (r.2.contract = id) && r.2.removedAt.isNone) :=
        List.filter_congr (fun r mem => openIn_whole whole mem)
      have each : ∀ r ∈ List.insertionSort addedBefore (o.firm.lines.filter (openIn id period)),
          coveredDays period r.2 = period.nominalDays := by
        intro r mem
        rw [lines, List.mem_insertionSort] at mem
        rcases List.mem_filter.mp mem with ⟨listed, open_⟩
        rcases Bool.and_eq_true_iff.mp open_ with ⟨own, stands⟩
        have stands' := Option.isNone_iff_eq_none.mp stands
        rcases whole.lines r listed (of_decide_eq_true own) with ⟨_, added⟩ | ⟨day, removed, _⟩
        · unfold coveredDays
          rw [stands', Option.getD_none]
          exact overlapDays_of_within whole.uncut added le_rfl
        · rw [stands'] at removed
          cases removed
      have all : (List.insertionSort addedBefore (o.firm.lines.filter (openIn id period))).filter
          (fun r => decide (coveredDays period r.2 ≠ 0)) =
          List.insertionSort addedBefore (o.firm.lines.filter (openIn id period)) := by
        rw [List.filter_eq_self]
        intro r mem
        rw [each r mem]
        exact decide_eq_true (nominalDays_pos period)
      have amounts : ∀ r ∈ List.insertionSort addedBefore (o.firm.lines.filter (openIn id period)),
          (InvoiceLine.amount ∘ fun r => prorated .elevatorFee (some r.2.elevator) period (coveredDays period r.2)
            r.2.unitPrice) r = months contract.billingPeriod * r.2.unitPrice.getD 0 := by
        intro r mem
        rw [Function.comp_apply, each r mem, amount_prorated, count, mul_comm]
      have perm := (List.perm_insertionSort addedBefore (o.firm.lines.filter (openIn id period))).map
        (fun r => (months contract.billingPeriod : Int) * r.2.unitPrice.getD 0)
      rw [all, List.map_map, List.map_congr_left amounts, perm.sum_eq, lines, List.sum_map_mul_left]

end Fees

/-! ## What the generator adds -/

/-- Each line is on a draft. -/
def Bills.Filed (v : Bills) : Prop := ∀ r ∈ v.lines, r.2.draft ∈ v.drafts.map Prod.fst

section Filed

variable {v v' : Bills} {bound : Nat}

theorem Bills.Filed.linesOf_eq_nil (filed : v.Filed) (sound : v.Sound bound) : v.linesOf bound = [] := by
  unfold Bills.linesOf
  rw [List.filter_eq_nil_iff]
  intro r mem on
  rcases List.mem_map.mp (filed r mem) with ⟨d, listed, same⟩
  have below := sound.drafts.of_mem listed
  have here := of_decide_eq_true on
  omega

/-- The lines of a draft stay on drafts. -/
theorem Bills.Filed.of_lines (filed : v.Filed) (drafts : v'.drafts.map Prod.fst = v.drafts.map Prod.fst)
    (lines : ∀ r ∈ v'.lines, (∃ r' ∈ v.lines, r.2.draft = r'.2.draft) ∨ r.2.draft ∈ v.drafts.map Prod.fst) :
    v'.Filed := by
  intro r mem
  rw [drafts]
  rcases lines r mem with ⟨r', mem', same⟩ | here
  · rw [same]
    exact filed r' mem'
  · exact here

theorem lines_updateLine {id : Nat} {f : InvoiceLine -> InvoiceLine} (stays : ∀ line, (f line).draft = line.draft)
    {r : Nat × InvoiceLine} (mem : r ∈ (v.updateLine id f).lines) : ∃ r' ∈ v.lines, r.2.draft = r'.2.draft := by
  rcases Rows.mem_update.mp mem with ⟨before, _⟩ | ⟨row, before, rfl⟩
  · exact ⟨r, before, rfl⟩
  · exact ⟨_, before, stays row⟩

theorem Bills.Filed.call (filed : v.Filed) {call : Call} (done : call.attempt v bound = .ok v') : v'.Filed := by
  apply filed.of_lines (keys_call done)
  intro r mem
  cases call with
  | addLine draft new =>
      rcases addLine_ok done with ⟨row, found, _, rfl⟩
      rw [lines_recompute] at mem
      rcases List.mem_append.mp mem with before | last
      · exact Or.inl ⟨r, before, rfl⟩
      · rw [List.mem_singleton.mp last]
        exact Or.inr (List.mem_map.mpr ⟨_, Rows.mem_of_get? found, rfl⟩)
  | editLine id changes =>
      rcases editLine_ok done with ⟨line, _, _, _, _, _, rfl⟩
      rw [lines_recompute] at mem
      exact Or.inl (lines_updateLine (f := InvoiceLine.savedOver (changes.apply line)) (fun _ => rfl) mem)
  | removeLine id =>
      rcases removeLine_ok done with ⟨line, _, _, _, _, _, rfl⟩
      rw [lines_recompute] at mem
      exact Or.inl (lines_updateLine (f := InvoiceLine.deleted) (fun _ => rfl) mem)
  | issue id number date posts =>
      rcases issue_ok done with ⟨draft, _, _, _, rfl⟩
      have same : r ∈ (v.recompute id).lines := mem
      rw [lines_recompute] at same
      exact Or.inl ⟨r, same, rfl⟩
  | markPaid id settles =>
      rcases markPaid_ok done with ⟨draft, _, _, rfl⟩
      exact Or.inl ⟨r, mem, rfl⟩
  | cancel id reason reverses =>
      rcases cancel_ok done with ⟨draft, _, _, rfl⟩
      rw [releaseFaults_lines] at mem
      rcases List.mem_map.mp mem with ⟨r', before, rfl⟩
      refine Or.inl ⟨r', before, ?_⟩
      split
      · exact draft_giveBack r'
      · rfl
  | sync id covered =>
      cases done
      exact Or.inl ⟨r, mem, rfl⟩

end Filed

section Drafting

variable {o : Office} {id : Nat} {contract : Contract} {vatRate : Int} {period : Period}

theorem lines_draftFor (o : Office) (id : Nat) (contract : Contract) (vatRate : Int) (period : Period) :
    ∃ lines, (o.draftFor id contract vatRate period).bills.lines = o.bills.lines ++ lines ∧
      ∀ r ∈ lines, r.2.draft = o.nextId ∧ o.bills.periodTaken id period.start = false := by
  cases free : o.bills.periodTaken id period.start with
  | true =>
      rw [Office.draftFor_of_taken free]
      exact ⟨[], (List.append_nil _).symm, fun _ mem => by cases mem⟩
  | false =>
      refine ⟨placed o.nextId (o.newLines id contract period), lines_draftFor_eq contract vatRate free, ?_⟩
      intro r mem
      rcases mem_placed mem with ⟨k, line, _, _, rfl⟩
      exact ⟨rfl, rfl⟩

theorem Bills.Filed.draftFor (filed : o.bills.Filed) (sound : o.Sound) :
    (o.draftFor id contract vatRate period).bills.Filed := by
  rcases lines_draftFor o id contract vatRate period with ⟨lines, same, new⟩
  have kept : ∀ key ∈ o.bills.drafts.map Prod.fst,
      key ∈ (o.draftFor id contract vatRate period).bills.drafts.map Prod.fst := by
    intro key mem
    rcases List.mem_map.mp mem with ⟨d, listed, rfl⟩
    exact List.mem_map_of_mem (drafts_kept sound d listed)
  intro r mem
  rw [same] at mem
  rcases List.mem_append.mp mem with before | last
  · exact kept _ (filed r before)
  · rcases new r last with ⟨on, free⟩
    rcases drafts_draftFor contract vatRate sound free with ⟨draft, _, drafts⟩
    rw [on, drafts]
    exact List.mem_map.mpr ⟨_, List.mem_append_right _ (List.mem_singleton_self _), rfl⟩

/-- Of a fault line the amount is not known yet. -/
theorem amounts_newLines (quiet : billableFaults o.firm o.bills id period = []) :
    (o.newLines id contract period).map InvoiceLine.amount = (feeLines o.firm id contract period).map InvoiceLine.amount := by
  unfold Office.newLines
  rw [quiet, List.map_nil, List.append_nil]

theorem isLive_newLines {line : InvoiceLine} (mem : line ∈ o.newLines id contract period) : line.isLive = true := by
  rcases List.mem_append.mp mem with fee | fault
  · unfold feeLines at fee
    split at fee
    · rw [List.mem_singleton.mp fee]
      rfl
    · rcases List.mem_map.mp fee with ⟨r, _, rfl⟩
      rfl
  · rcases List.mem_map.mp fault with ⟨r, _, rfl⟩
    rfl

theorem amounts_placed {draft : Nat} {lines : List InvoiceLine} (live : ∀ line ∈ lines, line.isLive = true) :
    (((placed draft lines).filter (fun r => decide (r.2.draft = draft))).filter (fun r => r.2.isLive)).map
      (·.2.amount) = lines.map InvoiceLine.amount := by
  have on : (placed draft lines).filter (fun r => decide (r.2.draft = draft)) = placed draft lines := by
    rw [List.filter_eq_self]
    intro r mem
    rcases mem_placed mem with ⟨k, line, _, _, rfl⟩
    exact decide_eq_true rfl
  have kept : (placed draft lines).filter (fun r => r.2.isLive) = placed draft lines := by
    rw [List.filter_eq_self]
    intro r mem
    rcases mem_placed mem with ⟨k, line, listed, _, rfl⟩
    exact live line listed
  rw [on, kept]
  apply List.ext_getElem
  · simp [placed]
  · intro k _ _
    simp [placed]

/-- The totals of a new draft are those of its lines. -/
theorem amounts_written (filed : o.bills.Filed) (sound : o.Sound) :
    (o.written id contract vatRate period).amounts o.nextId = (o.newLines id contract period).map InvoiceLine.amount := by
  have none := filed.linesOf_eq_nil sound
  unfold Bills.linesOf at none
  unfold Bills.amounts Bills.liveLines Bills.linesOf Office.written
  dsimp only
  rw [List.filter_append, none, List.nil_append]
  exact amounts_placed (fun line => isLive_newLines)

/-- The draft that `draft_for` makes of some lines. -/
def draftOf (id : Nat) (contract : Contract) (vatRate : Int) (period : Period) (lines : List InvoiceLine) : InvoiceDraft :=
  (newDraft id contract vatRate period).withSums (totals (lines.map InvoiceLine.amount) vatRate)

theorem mem_draftFor_eq (filed : o.bills.Filed) (sound : o.Sound) {r : Nat × InvoiceDraft}
    (mem : r ∈ (o.draftFor id contract vatRate period).bills.drafts) :
    r ∈ o.bills.drafts ∨ r.2 = draftOf id contract vatRate period (o.newLines id contract period) := by
  cases free : o.bills.periodTaken id period.start with
  | true =>
      rw [Office.draftFor_of_taken free] at mem
      exact Or.inl mem
  | false =>
      rw [drafts_draftFor_eq contract vatRate sound free, amounts_written filed sound] at mem
      rcases List.mem_append.mp mem with before | last
      · exact Or.inl before
      · rw [List.mem_singleton.mp last]
        exact Or.inr rfl

/-- A fault that has been billed is billed no more. -/
theorem billableFaults_antitone {v v' : Bills} (kept : ∀ r ∈ v.lines, r ∈ v'.lines)
    (quiet : billableFaults o.firm v id period = []) : billableFaults o.firm v' id period = [] := by
  have none : ∀ r, r ∉ billableFaults o.firm v id period := by
    intro r mem
    rw [quiet] at mem
    cases mem
  rw [List.eq_nil_iff_forall_not_mem]
  intro r mem
  apply none r
  unfold billableFaults at mem ⊢
  rw [List.mem_insertionSort] at mem ⊢
  rcases List.mem_filter.mp mem with ⟨listed, test⟩
  simp only [Bool.and_eq_true] at test
  rcases test with ⟨⟨closed, unbilled⟩, covered⟩
  refine List.mem_filter.mpr ⟨listed, ?_⟩
  have still : (!v.isBilled r.1) = true := by
    rw [Bool.not_eq_true'] at unbilled ⊢
    unfold Bills.isBilled at unbilled ⊢
    rw [List.any_eq_false] at unbilled ⊢
    exact fun line held => unbilled line (kept line held)
  simp only [Bool.and_eq_true]
  exact ⟨⟨closed, still⟩, covered⟩

end Drafting

section Generating

variable {o : Office} {today : Date}

/-- What a run adds for a period without faults is made of the fee lines. -/
def Made (o : Office) (today : Date) (r : Nat × InvoiceDraft) : Prop :=
  ∃ c p vatRate, Due o.firm today c p ∧ c.2.vatRate = some vatRate ∧ r.2.For c.1 p ∧
    (billableFaults o.firm o.bills c.1 p = [] -> r.2 = draftOf c.1 c.2 vatRate p (feeLines o.firm c.1 c.2 p))

/-- How far a run has come from the office it began with. -/
structure Progress (o : Office) (today : Date) (o' : Office) : Prop where
  sound : o'.Sound
  filed : o'.bills.Filed
  firm : o'.firm = o.firm
  kept : ∀ r ∈ o.bills.lines, r ∈ o'.bills.lines
  drafts : ∀ r ∈ o'.bills.drafts, r ∈ o.bills.drafts ∨ Made o today r

theorem Progress.draftFor {o' : Office} (progress : Progress o today o') {c : Nat × Contract} {vatRate : Int} {p : Period}
    (due : Due o.firm today c p) (rate : c.2.vatRate = some vatRate) :
    Progress o today (o'.draftFor c.1 c.2 vatRate p) := by
  rcases lines_draftFor o' c.1 c.2 vatRate p with ⟨lines, same, _⟩
  refine ⟨progress.sound.draftFor, progress.filed.draftFor progress.sound,
    (Office.firm_draftFor _ _ _ _ _).trans progress.firm, ?_, ?_⟩
  · intro r mem
    rw [same]
    exact List.mem_append_left _ (progress.kept r mem)
  · intro r mem
    rcases mem_draftFor progress.sound mem with old | ⟨_, drafted⟩
    · exact progress.drafts r old
    · rcases mem_draftFor_eq progress.filed progress.sound mem with old | made
      · exact progress.drafts r old
      · refine Or.inr ⟨c, p, vatRate, due, rate, drafted, ?_⟩
        intro quiet
        have quiet' := billableFaults_antitone progress.kept quiet
        rw [made]
        unfold draftOf
        rw [← progress.firm] at quiet' ⊢
        rw [amounts_newLines quiet']

theorem progress_generate (sound : o.Sound) (filed : o.bills.Filed) : Progress o today (o.generate today) := by
  apply Office.generate_invariant
  · intro o' c o'' billed turned progress
    refine Office.bill_invariant ?_ turned progress
    intro o'' vatRate p rate due progress'
    refine progress'.draftFor ⟨billed, ?_, due⟩ rate
    rw [rate]
    exact Option.some_ne_none vatRate
  · exact ⟨sound, filed, rfl, fun r mem => mem, fun r mem => Or.inl mem⟩

/-- The draft of a whole period bills what the screen shows. -/
theorem agrees_draftOf {id : Nat} {contract : Contract} {period : Period} {vatRate : Int}
    (whole : WholePeriod o id contract period) (rate : contract.vatRate = some vatRate) :
    AgreesWithScreen o.firm id contract
      (draftOf id contract vatRate period (feeLines o.firm id contract period)) := by
  have sum := sum_feeLines whole
  have one (single : months contract.billingPeriod = 1) :
      ((feeLines o.firm id contract period).map InvoiceLine.amount).sum = monthlySubtotal o.firm id contract := by
    rw [sum, single, Nat.cast_one, one_mul]
  refine ⟨sum, ?_, ?_⟩
  · intro single
    unfold monthlyVat
    rw [rate, Option.map_some, ← one single]
    rfl
  · intro single
    unfold monthlyTotal monthlyVat
    rw [rate, Option.map_some, Option.map_some, ← one single]
    rfl

end Generating

/-! ## Runs -/

theorem filed_step {o : Office} (sound : o.Sound) (filed : o.bills.Filed) (event : Event) :
    (o.step event).bills.Filed := by
  cases event with
  | firm request => exact filed
  | generate today => exact (progress_generate sound filed).filed
  | call call =>
      have stepped : o.step (.call call) = o.called call := rfl
      rw [stepped]
      cases done : call.commit o.bills o.nextId with
      | error failure =>
          rw [Office.called_of_error done]
          exact filed
      | ok bills =>
          rw [Office.called_of_ok done]
          replace done := (commit_ok.mp done).1
          exact filed.call done

theorem filed_reached (firm : Firm) (events : List Event) : (reached firm events).bills.Filed := by
  have all : (reached firm events).Sound ∧ (reached firm events).bills.Filed := by
    apply Transitions.run_invariant (J := fun (o : Office) => o.Sound ∧ o.bills.Filed)
    · intro o event now
      exact ⟨(now.1.step event).1, filed_step now.1 now.2 event⟩
    · exact ⟨Office.sound_start firm, fun r mem => by cases mem⟩
  exact all.2

theorem orderly_reached (start : Establishment) (events : List Event) : (reached start.firm events).Orderly :=
  Transitions.run_invariant (J := Office.Orderly) (fun _ event orderly => orderly.step event) events start.orderly

/-- **The contract screen and the bill agree** on every draft that a run of the generator
makes for a whole period. -/
theorem bill_agrees_with_screen (start : Establishment) (events : List Event) (today : Date) (id : Nat)
    (contract : Contract) (period : Period) (found : (reached start.firm events).firm.contracts.get? id = some contract)
    (whole : WholePeriod (reached start.firm events) id contract period) :
    ∀ r ∈ ((reached start.firm events).generate today).bills.drafts, r ∉ (reached start.firm events).bills.drafts ->
      r.2.contract = id -> r.2.periodStart = period.start ->
      AgreesWithScreen (reached start.firm events).firm id contract r.2 := by
  have orderly := orderly_reached start events
  intro r mem new own starts
  have progress := @progress_generate _ today orderly.sound (filed_reached start.firm events)
  rcases progress.drafts r mem with old | ⟨c, p, vatRate, due, rate, drafted, made⟩
  · exact absurd old new
  · have listed := List.mem_insertionSort _ |>.mp due.1
    have key : c.1 = id := drafted.contract.symm.trans own
    have row := Rows.get?_of_mem orderly.distinct (List.mem_filter.mp listed).1
    rw [key, found] at row
    have contract' := Option.some.inj row
    rw [← contract'] at rate made
    have period' : p = period := by
      apply period_of_start _ whole.listed (drafted.start.symm.trans starts)
      rw [contract']
      exact mem_periods_of_due due.2.2
    rw [key, period'] at made
    rw [made whole.quiet]
    exact agrees_draftOf whole rate

/-- The first quarter of 2026, at 1000.00 a month. -/
def firstQuarter : Period where
  start := .first 24312
  finish := (Date.first 24315).previous
  nominalEnd := (Date.first 24315).previous
  months := 3
  ordered := by decide

theorem bill_agrees_with_screen_quarter : ∃ contract, byQuarter.firm.contracts.get? 0 = some contract ∧
    ∃ r ∈ ((reached byQuarter.firm []).generate (.first 24315)).bills.drafts,
      r.2.subtotal = 300000 ∧ AgreesWithScreen byQuarter.firm 0 contract r.2 := by
  refine ⟨_, rfl, ?_⟩
  have drafted : ((reached byQuarter.firm []).generate (.first 24315)).bills.drafts.any (fun r =>
      decide (r.2.subtotal = 300000 ∧ r.2.contract = 0 ∧ r.2.periodStart = firstQuarter.start)) = true := by
    decide +kernel
  rcases List.any_eq_true.mp drafted with ⟨r, mem, row⟩
  rcases of_decide_eq_true row with ⟨subtotal, own, starts⟩
  refine ⟨r, mem, subtotal, ?_⟩
  refine bill_agrees_with_screen byQuarter [] (.first 24315) 0 _ firstQuarter rfl ⟨?_, rfl, ?_, ?_⟩ r mem ?_ own starts
  · decide +kernel
  · intro line impossible
    cases impossible
  · decide +kernel
  · intro impossible
    cases impossible

end Billing
end Shiftlush
