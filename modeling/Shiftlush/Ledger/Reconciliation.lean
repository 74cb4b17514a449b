import Shiftlush.Ledger.Runs

namespace Shiftlush
namespace Ledger

open Transactions

/-!
# Reconciliation

What a balance should be is said here without movements: a standing document
moves money as its kind says, an issued invoice is owed by its customer, and
nothing else counts.  The balances computed from the movements are those sums.
-/

/-- What a standing document means for a side. -/
def Document.meaning (d : Document) (side : Side) : Cents :=
  match d.body with
  | .collection account cashAccount _ _ =>
      (if side = .account account then -d.amount else 0) +
        (if side = .cash cashAccount then d.amount else 0)
  | .paymentOut account cashAccount _ _ =>
      (if side = .account account then d.amount else 0) +
        (if side = .cash cashAccount then -d.amount else 0)
  | .manualEntry account direction _ =>
      if side = .account account then direction.signed d.amount else 0
  | .accountTransfer source target =>
      (if side = .account source then -d.amount else 0) +
        (if side = .account target then d.amount else 0)
  | .cashTransfer source target =>
      (if side = .cash source then -d.amount else 0) +
        (if side = .cash target then d.amount else 0)
  | .accountOpening account direction =>
      if side = .account account then direction.signed d.amount else 0
  | .cashOpening cashAccount direction =>
      if side = .cash cashAccount then direction.signed d.amount else 0

/-- What an issued invoice means for a side: its total is owed on the
customer's account in its currency. -/
def InvoiceDraft.meaning (v : Books) (i : InvoiceDraft) (side : Side) : Cents :=
  match v.accountOf i.customer i.currency with
  | some account => if side = .account account.1 then i.total else 0
  | none => 0

namespace Books

/-- What the documents and invoices that are not cancelled mean for a side. -/
def expected (v : Books) (side : Side) : Cents :=
  Rows.total v.documents (fun _ d => if d.standing then d.meaning side else 0) +
    Rows.total v.invoices (fun _ i => if i.standing then i.meaning v side else 0)

/-- What the movements of one document add to a side. -/
def contribution (v : Books) (ref : DocumentRef) (side : Side) : Cents :=
  Rows.total (v.movementsOf ref) (fun _ m => m.signedOn side)

end Books

/-! ## Debits less credits -/

theorem accountBalance_eq (v : Books) (account : Id) : v.accountBalance account =
    Rows.total v.movements (fun _ m => m.signedOn (.account account)) := by
  unfold Books.accountBalance Books.accountTotal
  rw [Rows.total_filter, Rows.total_filter]
  apply Int.sub_eq_iff_eq_add.mpr
  rw [← Rows.total_add]
  apply Rows.total_congr
  intro r _
  unfold Movement.signedOn
  cases at_account : r.2.account with
  | none => simp
  | some side =>
      rcases side with ⟨id, direction⟩
      by_cases here : id = account
      · cases direction <;> simp [here, Direction.signed]
      · simp [here]

theorem cashBalance_eq (v : Books) (cashAccount : Id) : v.cashBalance cashAccount =
    Rows.total v.movements (fun _ m => m.signedOn (.cash cashAccount)) := by
  unfold Books.cashBalance Books.cashTotal
  rw [Rows.total_filter, Rows.total_filter]
  apply Int.sub_eq_iff_eq_add.mpr
  rw [← Rows.total_add]
  apply Rows.total_congr
  intro r _
  unfold Movement.signedOn
  cases at_cash : r.2.cashAccount with
  | none => simp
  | some side =>
      rcases side with ⟨id, direction⟩
      by_cases here : id = cashAccount
      · cases direction <;> simp [here, CashDirection.signed]
      · simp [here]

/-! ## The legs of a document are its meaning -/

theorem Document.worth_eq (id : Id) (d : Document) (side : Side) :
    (d.voucher id).worth side = d.meaning side := by
  unfold Voucher.worth Document.voucher Document.meaning
  cases d.body with
  | collection account cashAccount number method =>
      cases side <;> simp [DocumentBody.legs, Leg.signedOn, Direction.signed, CashDirection.signed,
        eq_comm]
  | paymentOut account cashAccount number method =>
      cases side <;> simp [DocumentBody.legs, Leg.signedOn, Direction.signed, CashDirection.signed,
        eq_comm]
  | manualEntry account direction reason =>
      cases side <;> simp [DocumentBody.legs, Leg.signedOn, eq_comm]
  | accountTransfer source target =>
      cases side <;> simp [DocumentBody.legs, Leg.signedOn, Direction.signed, eq_comm]
  | cashTransfer source target =>
      cases side <;> simp [DocumentBody.legs, Leg.signedOn, CashDirection.signed, eq_comm]
  | accountOpening account direction =>
      cases side <;> simp [DocumentBody.legs, Leg.signedOn, eq_comm]
  | cashOpening cashAccount direction =>
      cases direction <;> cases side <;>
        simp [DocumentBody.legs, Leg.signedOn, Direction.cash, Direction.signed,
          CashDirection.signed, eq_comm]

theorem InvoiceDraft.worth_eq {v : Books} {id account : Id} {i : InvoiceDraft}
    (live : i.total ≠ 0 -> ∃ row, v.accountOf i.customer i.currency = some (account, row))
    (side : Side) : (i.voucher id account).worth side = i.meaning v side := by
  unfold Voucher.worth InvoiceDraft.voucher InvoiceDraft.meaning
  by_cases zero : i.total = 0
  · rw [if_pos zero, zero]
    cases v.accountOf i.customer i.currency <;> simp
  · rcases live zero with ⟨row, found⟩
    rw [if_neg zero, found]
    cases side <;> simp [Leg.signedOn, Direction.signed, eq_comm]

/-! ## What each document contributes -/

theorem SoundBooks.contribution_document {v : Books} (sound : SoundBooks v) {id : Id} {d : Document}
    (found : v.documents.get? id = some d) (side : Side) :
    v.contribution (d.ref id) side = if d.standing then d.meaning side else 0 := by
  have entered := (sound.documents id d found).total side
  rw [d.worth_eq] at entered
  rw [show v.contribution (d.ref id) side = _ from entered]
  cases d.standing <;> rfl

theorem SoundBooks.contribution_invoice {v : Books} (sound : SoundBooks v) {id : Id}
    {i : InvoiceDraft} (found : v.invoices.get? id = some i) (side : Side) :
    v.contribution (invoiceRef id) side = if i.standing then i.meaning v side else 0 := by
  cases sound.invoices id i found with
  | unposted standing empty =>
      unfold Books.contribution
      rw [empty, standing]
      rfl
  | posted _ live entered =>
      have worth := entered.total side
      rw [InvoiceDraft.worth_eq live] at worth
      rw [show v.contribution (invoiceRef id) side = _ from worth]
      cases i.standing <;> rfl

/-! ## All movements, document by document -/

theorem SoundBooks.total_movements {v : Books} (sound : SoundBooks v) (side : Side) :
    Rows.total v.movements (fun _ m => m.signedOn side) = v.expected side := by
  let ofInvoice : Id × Movement -> Bool := fun r => decide (r.2.document.type = .invoiceDraft)
  have split : Rows.total v.movements (fun _ m => m.signedOn side) =
      Rows.total (v.movements.filter (fun r => !ofInvoice r)) (fun _ m => m.signedOn side) +
        Rows.total (v.movements.filter ofInvoice) (fun _ m => m.signedOn side) := by
    rw [Rows.total_filter, Rows.total_filter, ← Rows.total_add]
    apply Rows.total_congr
    intro r _
    cases ofInvoice r <;> simp
  rw [split]
  unfold Books.expected
  congr 1
  · rw [Rows.total_group sound.documentKeys (fun m => m.document.id)]
    · apply Rows.total_congr
      intro g mem
      have found : v.documents.get? g.1 = some g.2 := Rows.get?_of_mem sound.documentKeys mem
      rw [← sound.contribution_document found side]
      unfold Books.contribution Books.movementsOf
      rw [List.filter_filter]
      apply congrArg (fun rows => Rows.total rows (fun _ m => Movement.signedOn m side))
      apply List.filter_congr
      intro r at_r
      rw [Bool.eq_iff_iff]
      simp only [ofInvoice, Bool.and_eq_true, decide_eq_true_eq, Bool.not_eq_true',
        decide_eq_false_iff_not]
      constructor
      · rintro ⟨key, other⟩
        cases sound.known r at_r with
        | invoice same => exact absurd (congrArg DocumentRef.type same) other
        | @document id d same at_id =>
            have here : id = g.1 := (congrArg DocumentRef.id same).symm.trans key
            rw [here, found] at at_id
            cases at_id
            rw [same, here]
      · intro same
        rw [same]
        exact ⟨rfl, DocumentBody.type_ne_invoice _⟩
    · intro r mem
      rcases List.mem_filter.mp mem with ⟨listed, other⟩
      cases sound.known r listed with
      | invoice same =>
          simp [ofInvoice, same, invoiceRef] at other
      | document same at_id =>
          rw [same]
          exact Option.isSome_iff_exists.mpr ⟨_, at_id⟩
  · rw [Rows.total_group sound.invoiceKeys (fun m => m.document.id)]
    · apply Rows.total_congr
      intro g mem
      have found : v.invoices.get? g.1 = some g.2 := Rows.get?_of_mem sound.invoiceKeys mem
      rw [← sound.contribution_invoice found side]
      unfold Books.contribution Books.movementsOf
      rw [List.filter_filter]
      apply congrArg (fun rows => Rows.total rows (fun _ m => Movement.signedOn m side))
      apply List.filter_congr
      intro r _
      rw [Bool.eq_iff_iff]
      simp only [ofInvoice, Bool.and_eq_true, decide_eq_true_eq]
      constructor
      · rintro ⟨key, type⟩
        rw [← key, invoiceRef, ← type]
      · intro same
        rw [same]
        exact ⟨rfl, rfl⟩
    · intro r mem
      rcases List.mem_filter.mp mem with ⟨listed, type⟩
      cases sound.known r listed with
      | invoice same at_id =>
          rw [same]
          exact Option.isSome_iff_exists.mpr ⟨_, at_id⟩
      | document same =>
          have type : r.2.document.type = .invoiceDraft := of_decide_eq_true type
          rw [same] at type
          exact absurd type (DocumentBody.type_ne_invoice _)

end Ledger
end Shiftlush
