import Shiftlush.Fleet.Services
import Shiftlush.Billing.Periods
import Shiftlush.Billing.Services

namespace Shiftlush
namespace Billing

open Calendar (Date)
open Fleet (Contract ContractElevator Fault Firm)

/-!
# Generating drafts

The other half of `apps.billing.services`: what the daily job makes of the
firm's contracts, contract lines and faults.  One run is one transaction, and
the rows it makes get their keys in the order they are written.
-/

/-- The firm, and what it has billed. -/
structure Office where
  firm : Firm
  bills : Bills
  nextId : Nat
  deriving DecidableEq

/-- `RECENTLY_ENDED` and `LOOKBACK`, in days. -/
def lookback : Int := 92

def lastBilledDay (contract : Contract) : Date :=
  match contract.terminatedAt with
  | some day => if contract.status = .terminated then min contract.endDate day else contract.endDate
  | none => contract.endDate

/-! ## Lines -/

/-- The fraction a fee line bills. -/
def Period.proration (period : Period) (covered : Nat) : Proration where
  months := period.months
  coveredDays := covered
  periodDays := period.nominalDays
  positive := Nat.succ_pos _

/-- `_prorated`, not on a draft yet. -/
def prorated (kind : InvoiceLineKind) (elevator : Option Nat) (period : Period) (covered : Nat)
    (unitPrice : Option Cents) : InvoiceLine where
  draft := 0
  kind := kind
  description := .fee elevator period.start period.finish period.months covered period.nominalDays
  elevator := elevator
  fault := none
  faultReleased := false
  quantity := proratedQuantity (period.proration covered)
  proration := some (period.proration covered)
  unitPrice := unitPrice
  amount := proratedAmount (period.proration covered) unitPrice
  needsPrice := unitPrice.isNone
  position := 0
  isDeleted := false

/-- The days a contract line covers of a period: "the day a lift is removed is
still a covered day". -/
def coveredDays (period : Period) (line : ContractElevator) : Nat :=
  overlapDays (period.start, period.finish) (line.addedAt, line.removedAt.getD period.finish)

/-- The contract lines open at some point of the period. -/
def openIn (contract : Nat) (period : Period) (r : Nat × ContractElevator) : Bool :=
  decide (r.2.contract = contract ∧ r.2.addedAt ≤ period.finish) &&
    r.2.removedAt.all (fun day => decide (period.start ≤ day))

/-- `order_by("added_at", "id")` -/
def addedBefore (r r' : Nat × ContractElevator) : Prop :=
  r.2.addedAt < r'.2.addedAt ∨ (r.2.addedAt = r'.2.addedAt ∧ r.1 ≤ r'.1)

instance : DecidableRel addedBefore := fun _ _ => inferInstanceAs (Decidable (_ ∨ (_ ∧ _)))

def feeLines (s : Firm) (id : Nat) (contract : Contract) (period : Period) : List InvoiceLine :=
  match contract.pricingType with
  | .flat =>
      let covered := overlapDays (period.start, period.finish) (contract.startDate, lastBilledDay contract)
      [prorated .contractFee none period covered contract.monthlyFee]
  | .perElevator =>
      ((List.insertionSort addedBefore (s.lines.filter (openIn id period))).filter (fun r =>
          decide (coveredDays period r.2 ≠ 0))).map (fun r =>
        prorated .elevatorFee (some r.2.elevator) period (coveredDays period r.2) r.2.unitPrice)

namespace Bills

/-- The fault is on a live line that holds it. -/
def isBilled (v : Bills) (fault : Nat) : Bool := v.lines.any (fun r => r.2.bills fault)

/-- A draft of the contract that is not cancelled starts on the day. -/
def periodTaken (v : Bills) (contract : Nat) (day : Date) : Bool :=
  v.drafts.any (fun r => decide (r.2.contract = contract ∧ r.2.periodStart = day) && r.2.isLive)

end Bills

/-- The contract line covers the lift on the day. -/
def coversOn (day : Date) (line : ContractElevator) : Bool :=
  decide (line.addedAt ≤ day) && line.removedAt.all (fun last => decide (day ≤ last))

/-- The fault was closed within the period. -/
def closedIn (period : Period) (fault : Fault) : Bool :=
  fault.closedOn.any (fun day => decide (period.start ≤ day ∧ day ≤ period.finish))

/-- `order_by("closed_at", "id")`, of faults that are closed. -/
def closedBefore (r r' : Nat × Fault) : Prop :=
  r.2.closedAt.getD 0 < r'.2.closedAt.getD 0 ∨ (r.2.closedAt.getD 0 = r'.2.closedAt.getD 0 ∧ r.1 ≤ r'.1)

instance : DecidableRel closedBefore := fun _ _ => inferInstanceAs (Decidable (_ ∨ (_ ∧ _)))

def billableFaults (s : Firm) (v : Bills) (id : Nat) (period : Period) : Rows Fault :=
  List.insertionSort closedBefore (s.faults.filter (fun r =>
    decide (r.2.status = .closed ∧ r.2.billable = some true) && closedIn period r.2 && !v.isBilled r.1 &&
      s.lines.any (fun l => decide (l.2.contract = id ∧ l.2.elevator = r.2.elevator) &&
        coversOn r.2.reportedOn l.2)))

/-- `_fault_line`, not on a draft yet. -/
def faultLine (r : Nat × Fault) : InvoiceLine where
  draft := 0
  kind := .fault
  description := .repair r.1 r.2.partsUsed
  elevator := some r.2.elevator
  fault := some r.1
  faultReleased := false
  quantity := quantityStep
  proration := none
  unitPrice := none
  amount := 0
  needsPrice := true
  position := 0
  isDeleted := false

/-! ## Drafts -/

/-- The row `draft_for` makes. -/
def newDraft (id : Nat) (contract : Contract) (vatRate : Int) (period : Period) : InvoiceDraft where
  contract := id
  customer := contract.customer
  periodStart := period.start
  periodEnd := period.finish
  status := .draft
  currency := contract.currency
  vatRate := vatRate
  subtotal := 0
  vatAmount := 0
  total := 0
  invoiceNumber := ""
  invoiceDate := none
  paidOn := none
  cancelReason := ""
  notes := ""

/-- Lines put on a draft, in order, with the keys after its own. -/
def placed (draft : Nat) (lines : List InvoiceLine) : Rows InvoiceLine :=
  lines.mapIdx (fun k line => (draft + 1 + k, { line with draft := draft, position := k }))

namespace Office

/-- `draft_for`.  A unique index refuses a second live draft of the period; the
faults it takes are on no live line. -/
def draftFor (o : Office) (id : Nat) (contract : Contract) (vatRate : Int) (period : Period) : Office :=
  if o.bills.periodTaken id period.start then o
  else
    let lines := feeLines o.firm id contract period ++
      (billableFaults o.firm o.bills id period).map faultLine
    let bills : Bills := {
      drafts := o.bills.drafts.insert o.nextId (newDraft id contract vatRate period)
      lines := o.bills.lines ++ placed o.nextId lines }
    { o with bills := bills.recompute o.nextId, nextId := o.nextId + 1 + lines.length }

/-- The contracts `generate` bills on a day. -/
def isBilled (today : Date) (contract : Contract) : Bool :=
  match contract.status with
  | .active => true
  | .expired => decide (today.ordinal - lookback ≤ contract.endDate.ordinal)
  | .renewed => decide (today.ordinal - lookback ≤ contract.endDate.ordinal)
  | .terminated => contract.terminatedAt.any (fun day => decide (today.ordinal - lookback ≤ day.ordinal))
  | .draft => false

/-- `order_by("start_date", "id")` -/
def startsBefore (r r' : Nat × Contract) : Prop :=
  r.2.startDate < r'.2.startDate ∨ (r.2.startDate = r'.2.startDate ∧ r.1 ≤ r'.1)

instance : DecidableRel startsBefore := fun _ _ => inferInstanceAs (Decidable (_ ∨ (_ ∧ _)))

def billedContracts (s : Firm) (today : Date) : Rows Contract :=
  List.insertionSort startsBefore (s.contracts.filter (fun r => isBilled today r.2))

/-- The periods of a contract that ended before today and are not too old: the
loop of `generate` up to its `break`. -/
def duePeriods (contract : Contract) (today : Date) : List Period :=
  ((periods contract.startDate (lastBilledDay contract) contract.billingPeriod).takeWhile (fun p =>
    decide (p.finish < today))).filter (fun p => decide (today.ordinal - lookback ≤ p.finish.ordinal))

/-- The due periods no live draft starts with. -/
def missingPeriods (v : Bills) (id : Nat) (contract : Contract) (today : Date) : List Period :=
  (duePeriods contract today).filter (fun p => !v.periodTaken id p.start)

/-- A value that its column cannot hold is a `DataError`, which `draft_for` does not catch. -/
def stored (o : Office) : Option Office := if o.bills.inColumns then some o else none

/-- The turn of one contract.  With no VAT rate it gets a notice and no draft. -/
def bill (today : Date) (o : Office) (r : Nat × Contract) : Option Office :=
  match r.2.vatRate with
  | none => some o
  | some vatRate => (missingPeriods o.bills r.1 r.2 today).foldlM
      (fun o period => (o.draftFor r.1 r.2 vatRate period).stored) o

/-- The drafts of a run, unless it meets an error. -/
def drafted (o : Office) (today : Date) : Option Office := (billedContracts o.firm today).foldlM (bill today) o

/-- `generate`: an error rolls the whole run back. -/
def generate (o : Office) (today : Date) : Office := (o.drafted today).getD o

/-- Some draft of the run does not fit its columns. -/
def overflows (o : Office) (today : Date) : Bool := (o.drafted today).isNone

end Office

end Billing
end Shiftlush
