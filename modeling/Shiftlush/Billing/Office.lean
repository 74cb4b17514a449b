import Shiftlush.Outcomes
import Shiftlush.Transitions
import Shiftlush.Billing.Generation

namespace Shiftlush
namespace Billing

open Calendar (Date)
open Fleet (Contract Firm)

/-!
# The office at work

A firm under any sequence of requests and nightly runs: whatever happens to its
contracts, lifts and faults, the drafts generated, and what the office does to
them.
-/

/-- A call of the lifecycle half of `apps.billing.services`, or of the ledger's
`sync_invoice_status`. -/
inductive Call where
  | addLine (draft : Nat) (new : NewLine)
  | editLine (line : Nat) (changes : LineChanges)
  | removeLine (line : Nat)
  | issue (draft : Nat) (number : String) (date : Date) (posts : Bool)
  | markPaid (draft : Nat) (settles : Option Date)
  | cancel (draft : Nat) (reason : String) (reverses : Bool)
  /-- `covered` is the day standing collections cover the invoice on. -/
  | sync (draft : Nat) (covered : Option Date)
  deriving DecidableEq

/-- `sync_invoice_status`: "a draft or a cancelled invoice is left as it is". -/
def InvoiceDraft.synced (covered : Option Date) (draft : InvoiceDraft) : InvoiceDraft :=
  if draft.status.payable then
    if draft.total = 0 then draft.paid draft.invoiceDate
    else if covered.isSome then draft.paid covered
    else { draft with status := .issued, paidOn := none }
  else draft

def Call.attempt (v : Bills) (key : Nat) : Call -> Except Failure Bills
  | .addLine draft new => v.addLine draft new key
  | .editLine line changes => v.editLine line changes
  | .removeLine line => v.removeLine line
  | .issue draft number date posts => v.issue draft number date posts
  | .markPaid draft settles => v.markPaid draft settles
  | .cancel draft reason reverses => v.cancel draft reason reverses
  | .sync draft covered => .ok (v.updateDraft draft (InvoiceDraft.synced covered))

/-- The rows a call has written, if their columns can hold them. -/
def Call.commit (v : Bills) (key : Nat) (call : Call) : Except Failure Bills := do
  let v' ← call.attempt v key
  if v'.inColumns then .ok v' else .error .dataError

theorem commit_ok {v v' : Bills} {key : Nat} {call : Call} :
    call.commit v key = .ok v' ↔ call.attempt v key = .ok v' ∧ v'.inColumns = true := by
  unfold Call.commit
  rw [bind_ok]
  constructor
  · rintro ⟨w, done, stored⟩
    split at stored
    · rename_i fits
      cases stored
      exact ⟨done, fits⟩
    · cases stored
  · rintro ⟨done, fits⟩
    exact ⟨v', done, if_pos fits⟩

inductive Event where
  | firm (event : Fleet.Event)
  | generate (today : Date)
  | call (call : Call)
  deriving DecidableEq

namespace Office

/-- A firm that has billed nothing yet. -/
def start (firm : Firm) : Office := ⟨firm, ⟨[], []⟩, 0⟩

def called (o : Office) (call : Call) : Office :=
  match call.commit o.bills o.nextId with
  | .ok bills => { o with bills := bills, nextId := o.nextId + 1 }
  | .error _ => o

/-- A refused request leaves everything as it is. -/
def step (o : Office) : Event -> Office
  | .firm event => { o with firm := o.firm.step event }
  | .generate today => o.generate today
  | .call call => o.called call

theorem called_of_ok {o : Office} {call : Call} {bills : Bills}
    (done : call.commit o.bills o.nextId = .ok bills) :
    o.called call = { o with bills := bills, nextId := o.nextId + 1 } := by
  unfold called
  rw [done]

theorem called_of_error {o : Office} {call : Call} {failure : Failure}
    (refused : call.commit o.bills o.nextId = .error failure) : o.called call = o := by
  unfold called
  rw [refused]

/-! ## One run of the generator -/

section Generating

variable {o : Office}

theorem firm_draftFor (o : Office) (id : Nat) (contract : Contract) (vatRate : Int) (period : Period) :
    (o.draftFor id contract vatRate period).firm = o.firm := by
  unfold draftFor
  split
  · rfl
  · rfl

theorem stored_eq_some {o' : Office} : o.stored = some o' ↔ o = o' ∧ o.bills.inColumns = true := by
  unfold stored
  split
  · rename_i fits
    simp [fits]
  · rename_i fits
    simp [fits]

/-- What every draft keeps, among those a contract is due, its turn keeps. -/
theorem bill_invariant {J : Office -> Prop} {today : Date} {r : Nat × Contract} {o' : Office}
    (keeps : ∀ o vatRate period, r.2.vatRate = some vatRate -> period ∈ duePeriods r.2 today -> J o ->
      J (o.draftFor r.1 r.2 vatRate period)) (billed : bill today o r = some o') (now : J o) : J o' := by
  unfold bill at billed
  cases rate : r.2.vatRate with
  | none =>
      rw [rate] at billed
      cases billed
      exact now
  | some vatRate =>
      rw [rate] at billed
      refine Transitions.foldlM_invariant (J := J) ?_ billed now
      intro o period o' missing now' turned
      rw [← (stored_eq_some.mp turned).1]
      exact keeps o vatRate period rate (List.mem_filter.mp missing).1 now'

/-- A run that is rolled back leaves everything as it is. -/
theorem generate_of_overflows {today : Date} (overflows : o.overflows today = true) : o.generate today = o := by
  unfold generate
  rw [Option.isNone_iff_eq_none.mp overflows]
  rfl

theorem drafted_eq_some {today : Date} (fits : o.overflows today = false) :
    o.drafted today = some (o.generate today) := by
  unfold overflows at fits
  unfold generate
  rw [Option.isNone_eq_false_iff] at fits
  rcases Option.isSome_iff_exists.mp fits with ⟨o', drafted⟩
  rw [drafted]
  rfl

/-- What the turn of every contract keeps, the run keeps. -/
theorem generate_invariant {J : Office -> Prop} {today : Date}
    (keeps : ∀ o' r o'', r ∈ billedContracts o.firm today -> bill today o' r = some o'' -> J o' -> J o'') (now : J o) :
    J (o.generate today) := by
  cases overflows : o.overflows today with
  | true =>
      rw [generate_of_overflows overflows]
      exact now
  | false =>
      exact Transitions.foldlM_invariant (J := J) (fun o' r o'' mem now' billed => keeps o' r o'' mem billed now')
        (drafted_eq_some overflows) now

/-- What every draft keeps, the run keeps. -/
theorem generate_invariant_of_draftFor {J : Office -> Prop} {today : Date}
    (keeps : ∀ o id contract vatRate period, J o -> J (o.draftFor id contract vatRate period)) (now : J o) :
    J (o.generate today) :=
  generate_invariant (fun _ _ _ _ billed now' =>
    bill_invariant (fun o vatRate period _ _ => keeps o _ _ vatRate period) billed now') now

theorem firm_generate (o : Office) (today : Date) : (o.generate today).firm = o.firm :=
  generate_invariant_of_draftFor (J := fun o' => o'.firm = o.firm)
    (fun o' id contract vatRate period same => (firm_draftFor o' id contract vatRate period).trans same) rfl

end Generating

end Office

end Billing
end Shiftlush
