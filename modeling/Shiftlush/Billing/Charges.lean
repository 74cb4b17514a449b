import Shiftlush.Billing.PeriodsOnce

namespace Shiftlush
namespace Billing

open Calendar (Date)
open Fleet (Contract ContractElevator Firm)

/-!
# Whom a fee line charges, and for which days

A fee line counts the days it covers and does not name them.  They are the days the
contract line shares with the period when the draft is made, and for a flat fee those
the contract shares with it.  A journal keeps them beside the office's books.
-/

/-! ## Days -/

/-- The first and the last day two ranges share. -/
def common (days days' : Date × Date) : Date × Date := (max days.1 days'.1, min days.2 days'.2)

def within (day : Date) (days : Date × Date) : Prop := days.1 ≤ day ∧ day ≤ days.2

instance (day : Date) (days : Date × Date) : Decidable (within day days) :=
  inferInstanceAs (Decidable (_ ∧ _))

/-- How many days there are from the first to the last. -/
def dayCount (days : Date × Date) : Nat := (days.2.ordinal - days.1.ordinal + 1).toNat

def Period.days (period : Period) : Date × Date := (period.start, period.finish)

/-- The days of a range that a contract line is open on. -/
def lineDays (days : Date × Date) (line : ContractElevator) : Date × Date :=
  common days (line.addedAt, line.removedAt.getD days.2)

/-! ## What a fee line charges -/

/-- A lift, or the term of a flat-priced contract. -/
inductive Subject where
  | lift (elevator : Nat)
  | term (contract : Nat)
  deriving DecidableEq

/-- Days a subject is charged for, by the fee line that has the place on its draft. -/
structure Stretch where
  place : Nat
  subject : Subject
  days : Date × Date
  deriving DecidableEq

/-- The contract lines open on some of the days. -/
def openWithin (contract : Nat) (days : Date × Date) (r : Nat × ContractElevator) : Bool :=
  decide (r.2.contract = contract ∧ r.2.addedAt ≤ days.2) && r.2.removedAt.all (fun day => decide (days.1 ≤ day))

/-- The contract lines with a fee line, in its order. -/
def billedLines (s : Firm) (id : Nat) (days : Date × Date) : Rows ContractElevator :=
  (List.insertionSort addedBefore (s.lines.filter (openWithin id days))).filter (fun r =>
    decide (dayCount (lineDays days r.2) ≠ 0))

/-- What the fee lines of a draft charge.  The one of a flat-priced contract charges the term
of the contract, that of the contract before it, and the lifts for the days they are on it. -/
def feeStretches (s : Firm) (id : Nat) (contract : Contract) (days : Date × Date) : List Stretch :=
  match contract.pricingType with
  | .flat =>
      let covered := common days (contract.startDate, lastBilledDay contract)
      ⟨0, .term id, covered⟩ :: (contract.previousContract.toList.map (fun previous => ⟨0, .term previous, covered⟩) ++
        (s.lines.filter (openWithin id days)).map (fun r => ⟨0, .lift r.2.elevator, lineDays covered r.2⟩))
  | .perElevator =>
      (billedLines s id days).mapIdx (fun k r => ⟨k, .lift r.2.elevator, lineDays days r.2⟩)

section Stretches

variable {s : Firm} {id : Nat} {contract : Contract} {period : Period} {t : Stretch}

theorem feeLines_perElevator (each : contract.pricingType = .perElevator) : feeLines s id contract period =
    (billedLines s id period.days).map (fun r =>
      prorated .elevatorFee (some r.2.elevator) period (coveredDays period r.2) r.2.unitPrice) := by
  unfold feeLines
  rw [each]
  rfl

theorem feeLines_flat (flat : contract.pricingType = .flat) : feeLines s id contract period =
    [prorated .contractFee none period
      (dayCount (common period.days (contract.startDate, lastBilledDay contract))) contract.monthlyFee] := by
  unfold feeLines
  rw [flat]
  rfl

theorem mem_feeStretches_perElevator (each : contract.pricingType = .perElevator)
    (mem : t ∈ feeStretches s id contract period.days) : ∃ r, (billedLines s id period.days)[t.place]? = some r ∧
      t.subject = .lift r.2.elevator ∧ t.days = lineDays period.days r.2 := by
  unfold feeStretches at mem
  rw [each] at mem
  rcases List.mem_mapIdx.mp mem with ⟨k, short, rfl⟩
  exact ⟨_, List.getElem?_eq_getElem short, rfl, rfl⟩

theorem place_lt (mem : t ∈ feeStretches s id contract period.days) :
    t.place < (feeLines s id contract period).length := by
  cases priced : contract.pricingType with
  | flat =>
      have first : t.place = 0 := by
        unfold feeStretches at mem
        rw [priced] at mem
        rcases List.mem_cons.mp mem with rfl | rest
        · rfl
        · rcases List.mem_append.mp rest with previous | lift
          · rcases List.mem_map.mp previous with ⟨_, _, rfl⟩
            rfl
          · rcases List.mem_map.mp lift with ⟨_, _, rfl⟩
            rfl
      rw [feeLines_flat priced, first]
      exact Nat.one_pos
  | perElevator =>
      rcases mem_feeStretches_perElevator priced mem with ⟨r, found, _, _⟩
      rw [feeLines_perElevator priced, List.length_map]
      exact (List.getElem?_eq_some_iff.mp found).1

end Stretches

/-! ## The journal -/

/-- What a fee line charges. -/
structure Charge where
  line : Nat
  subject : Subject
  days : Date × Date
  deriving DecidableEq

/-- A charge of a draft, whose lines have the keys after its own. -/
def chargeOf (draft : Nat) (t : Stretch) : Charge := ⟨draft + 1 + t.place, t.subject, t.days⟩

def chargesOf (s : Firm) (r : Nat × InvoiceDraft) : List Charge :=
  match s.contracts.get? r.2.contract with
  | none => []
  | some contract =>
      (feeStretches s r.2.contract contract (r.2.periodStart, r.2.periodEnd)).map (chargeOf r.1)

/-- The line stands, on a draft that stands. -/
def Bills.isCharging (v : Bills) (line : Nat) : Bool :=
  (v.lines.get? line).any (fun row => row.isLive && (v.drafts.get? row.draft).any InvoiceDraft.isLive)

theorem isCharging_iff {v : Bills} {line : Nat} : v.isCharging line = true ↔ ∃ row draft,
    v.lines.get? line = some row ∧ row.isLive = true ∧ v.drafts.get? row.draft = some draft ∧ draft.isLive = true := by
  unfold Bills.isCharging
  simp only [Option.any_eq_true, Bool.and_eq_true, exists_and_left]

/-- The office, and what its fee lines have charged. -/
structure Journal where
  office : Office
  charges : List Charge

namespace Journal

def start (firm : Firm) : Journal := ⟨Office.start firm, []⟩

/-- What new drafts charge is written down with them. -/
def step (j : Journal) (event : Event) : Journal where
  office := j.office.step event
  charges := j.charges ++ ((j.office.step event).bills.drafts.filter (fun r => decide (j.office.nextId ≤ r.1))).flatMap
    (chargesOf j.office.firm)

/-- No day of a subject is charged on two fee lines that stand. -/
def ChargedOnce (j : Journal) : Prop :=
  ∀ c ∈ j.charges, ∀ c' ∈ j.charges, j.office.bills.isCharging c.line = true ->
    j.office.bills.isCharging c'.line = true -> c.subject = c'.subject ->
      ∀ day, within day c.days -> within day c'.days -> c.line = c'.line

end Journal

/-! ## What the next run charges -/

/-- The fee line of a due period of a contract that charges a subject. -/
structure Coming where
  contract : Nat
  start : Date
  stretch : Stretch
  deriving DecidableEq

/-- The contract is billed, and the period due and on no live draft. -/
def Missing (o : Office) (today : Date) (r : Nat × Contract) (period : Period) : Prop :=
  Due o.firm today r period ∧ o.bills.periodTaken r.1 period.start = false

/-- What the contract lines and the contracts are to be charged for. -/
def Office.coming (o : Office) (today : Date) : List Coming :=
  ((billedContracts o.firm today).filter (fun r => r.2.vatRate.isSome)).flatMap (fun r =>
    (missingPeriods o.bills r.1 r.2 today).flatMap (fun period =>
      (feeStretches o.firm r.1 r.2 period.days).map (fun t => ⟨r.1, period.start, t⟩)))

/-- Two are for one fee line. -/
def Coming.isBeside (c c' : Coming) : Bool :=
  decide (c.contract = c'.contract ∧ c.start = c'.start ∧ c.stretch.place = c'.stretch.place)

/-- The subjects are not the same, or they share no day. -/
def apart (subject subject' : Subject) (days days' : Date × Date) : Bool :=
  decide (subject ≠ subject') || decide (overlapDays days days' = 0)

/-- Of the contract lines and contracts to be charged, no two share a day of a subject, and none
shares one with what a standing line charges.  A run that is rolled back charges nothing. -/
def Journal.separate (j : Journal) : Event -> Bool
  | .generate today => j.office.overflows today || (j.office.coming today).all (fun c =>
      (j.office.coming today).all (fun c' =>
        c.isBeside c' || apart c.stretch.subject c'.stretch.subject c.stretch.days c'.stretch.days) &&
      j.charges.all (fun charge => !j.office.bills.isCharging charge.line ||
        apart c.stretch.subject charge.subject c.stretch.days charge.days))
  | _ => true

end Billing
end Shiftlush
