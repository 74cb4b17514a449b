import Shiftlush.Transactions.Footprint
import Shiftlush.Ledger.Runs

namespace Shiftlush
namespace Ledger

open Transactions

/-!
# What the services write

The updates the programs of the ledger are made of, read off their statements
once for any kind of update that covers them.
-/

/-- `Collection.number` and `PaymentOut.number`. -/
def DocumentBody.number? : DocumentBody -> NumberPrefix -> Option Nat
  | .collection _ _ number _, .collection => some number
  | .paymentOut _ _ number _, .paymentOut => some number
  | _, _ => none

/-- The kind holds of what the services write when they draw no number: a
posting is no reversal, and a mirror has the source of one. -/
class Covers (W : (Books -> Books) -> Prop) : Prop where
  post : ∀ id m, m.reverses = none -> W (Books.addMovement id m)
  mirror : ∀ id (original : Id × Movement) day source, source = .reversal ∨ source = .invoiceCancel ->
    W (Books.addMovement id (original.2.mirror original.1 day source))
  updateInvoice : ∀ id f, W (Books.updateInvoice id f)
  addDocument : ∀ id (document : Document), (∀ numberPrefix, document.body.number? numberPrefix = none) ->
    W (Books.addDocument id document)
  stampCancelled : ∀ id day, W (Books.stampCancelled id day)
  addApplication : ∀ id application, W (Books.addApplication id application)
  addAccount : ∀ id account, W (Books.addAccount id account)
  addCashAccount : ∀ id till, W (Books.addCashAccount id till)
  setClosedThrough : ∀ company day, W (Books.setClosedThrough company day)
  setClock : ∀ day, W (Books.setClock day)

/-- And of a number drawn, and the document that carries it. -/
class CoversNumbers (W : (Books -> Books) -> Prop) : Prop extends Covers W where
  setCounter : ∀ company numberPrefix last, W (Books.setCounter company numberPrefix last)
  addNumbered : ∀ id document, W (Books.addDocument id document)

variable {W : (Books -> Books) -> Prop} {again : Prop}

/-! ## Programs that write nothing -/

theorem writes_checkDate (company : Id) (day : Date) :
    (checkDate company day).Writes W again := by
  refine .bind (fun _ => trivial) (fun row => ?_)
  cases row with
  | none => trivial
  | some row => exact .bind .peek (fun _ => .bind .require (fun _ => .require))

theorem writes_lockSides (accounts cashAccounts : List Id) :
    (lockSides accounts cashAccounts).Writes W again :=
  .bind (.forEach (fun _ => .lock)) (fun _ => .bind (.forEach (fun _ => .lock)) (fun _ => trivial))

theorem writes_checkAfterOpening (account cashAccount : Option Id)
    (day : Date) : (checkAfterOpening account cashAccount day).Writes W again :=
  .bind (.forEach (fun _ => .ensure)) (fun _ => trivial)

theorem writes_checkForeignKeys (written : Rows Movement) : (checkForeignKeys written).Writes W again :=
  .bind (.forEach (fun _ => .lock)) (fun _ => trivial)

theorem writes_lockInvoices (ids : List Id) : (lockInvoices ids).Writes W again :=
  .bind (.forEach (fun _ => .lock)) (fun _ => trivial)

theorem writes_lockInvoice (id : Id) : (lockInvoice id).Writes W again := .bind .lock (fun _ => .fetch)

theorem writes_lockDocument (type : DocumentType) (id : Id) : (lockDocument type id).Writes W again :=
  .bind .lock (fun _ => .bind .fetch (fun _ => .bind .require (fun _ => trivial)))

theorem writes_checkApplies (company : Id) (applies : List (Id × Decimal)) :
    (checkApplies company applies).Writes W again :=
  .forEach (fun _ => .bind .fetch (fun _ => .bind .require (fun _ => .bind .require (fun _ => trivial))))

theorem writes_checkAmount (amount : Decimal) : (checkAmount amount).Writes W again :=
  .bind .require (fun _ => trivial)

theorem writes_checkMethod (method : Option PaymentMethod) : (checkMethod method).Writes W again := by
  cases method with
  | none => trivial
  | some method => trivial

theorem writes_checkDirection (direction : Option Direction) : (checkDirection direction).Writes W again := by
  cases direction with
  | none => trivial
  | some direction => trivial

theorem writes_checkTransfer {ρ : Type} (company : ρ -> Id) (currency : ρ -> String)
    (sourceField targetField : String) (source target : Option (Id × ρ)) :
    (checkTransfer company currency sourceField targetField source target).Writes W again := by
  unfold checkTransfer
  split
  · trivial
  · trivial
  · exact .bind .require (fun _ => .bind .require (fun _ => .bind .require (fun _ => trivial)))

theorem writes_findAccount (id : Id) : (findAccount id).Writes W again := .bind .fetch (fun _ => trivial)

theorem writes_findCashAccount (id : Id) : (findCashAccount id).Writes W again :=
  .bind .fetch (fun _ => trivial)

theorem writes_findOptional {ρ : Type} {look : Id -> LedgerProg (Id × ρ)}
    (calm : ∀ id, (look id).Writes W again) (id : Option Id) : (findOptional look id).Writes W again := by
  cases id with
  | none => trivial
  | some id => exact .bind (calm id) (fun _ => trivial)

/-! ## Programs that draw no number -/

section Covers

variable [Covers W]

theorem writes_post (account : Option (Id × Account)) (cashAccount : Option (Id × CashAccount))
    (direction : Option Direction) (cashDirection : Option CashDirection) (amount : Decimal)
    (currency : String) (date : Date) (source : MovementSource) (document : DocumentRef) :
    (post account cashAccount direction cashDirection amount currency date source document).Writes W again := by
  unfold post
  refine .bind .require (fun _ => .bind .require (fun _ => .bind .require (fun _ =>
    .bind .require (fun _ => .bind .require (fun _ => ?_)))))
  dsimp only
  split
  · refine .bind .require (fun _ => .bind (writes_checkDate _ _) (fun _ =>
      .bind (writes_lockSides _ _) (fun _ => ?_)))
    split
    · exact .bind .fresh (fun _ => .bind (.write (Covers.post _ _ rfl)) (fun _ => trivial))
    · exact .bind (writes_checkAfterOpening _ _ _) (fun _ =>
        .bind .fresh (fun _ => .bind (.write (Covers.post _ _ rfl)) (fun _ => trivial)))
  · trivial

theorem writes_reverseDocument (document : DocumentRef) (date : Date) (source : MovementSource) :
    (reverseDocument document date source).Writes W again := by
  refine .guard (fun known => .bind .observe (fun originals =>
    .bind (.forEach (fun _ => .lock)) (fun _ => ?_)))
  have kind : source = .reversal ∨ source = .invoiceCancel := by
    simpa using known
  cases originals.head? with
  | none => trivial
  | some first =>
      exact .bind (writes_checkDate _ _) (fun _ => .forEach (fun _ =>
        .bind .fresh (fun _ => .bind (.write (Covers.mirror _ _ _ _ kind)) (fun _ => trivial))))

theorem writes_stampCancelled (type : DocumentType) (id : Id) : (stampCancelled type id).Writes W again :=
  .bind .peek (fun _ => .bind (writes_reverseDocument _ _ _) (fun _ =>
    .bind (.write (Covers.stampCancelled _ _)) (fun _ => trivial)))

theorem writes_cancelDocument (type : DocumentType) (id : Id) : (cancelDocument type id).Writes W again :=
  .bind (writes_lockDocument _ _) (fun _ => writes_stampCancelled _ _)

theorem writes_syncInvoiceStatus (id : Id) : (syncInvoiceStatus id).Writes W again := by
  refine .bind .fetch (fun locked => ?_)
  split
  · refine .bind .observe (fun settlement => ?_)
    split
    · trivial
    · exact .write (Covers.updateInvoice _ _)
  · trivial

theorem writes_syncInvoices (ids : List Id) : (syncInvoices ids).Writes W again :=
  .bind (.forEach (fun _ => writes_syncInvoiceStatus _)) (fun _ => trivial)

theorem writes_applyOne (collection company : Id) (account : Account) (share : Cents) (id : Id) :
    (applyOne collection company account share id).Writes W again :=
  .bind .fetch (fun _ => .bind .require (fun _ => .bind .require (fun _ => .bind .ensure (fun _ =>
    .bind .ensure (fun _ => .bind .fresh (fun _ => .write (Covers.addApplication _ _)))))))

theorem writes_applyTo (collection company : Id) (account : Account) (limit : Cents)
    (applies : List (Id × Decimal)) : (applyTo collection company account limit applies).Writes W again :=
  .bind (writes_checkApplies _ _) (fun _ => .bind .require (fun _ =>
    .bind (.forEach (fun _ => writes_applyOne _ _ _ _ _)) (fun _ => trivial)))

theorem writes_finishCancel (collection : Id) (applied : List Id) :
    (finishCancel collection applied).Writes W again :=
  .bind (writes_stampCancelled _ _) (fun _ => .bind (writes_syncInvoices _) (fun _ => trivial))

/-- Only cancelling a collection starts over, before it has written anything. -/
theorem writes_cancelCollection (collection : Id) (attempts : Nat) :
    (cancelCollection collection attempts).Writes W True := by
  induction attempts with
  | zero => trivial
  | succ attempts ih =>
      refine .bind .peek (fun invoiceIds => .bind (writes_lockInvoices _) (fun _ =>
        .bind (writes_lockDocument _ _) (fun _ => .bind .observe (fun applied => ?_))))
      split
      · exact writes_finishCancel _ _
      · split
        · exact ⟨trivial, ih⟩
        · exact .bind (writes_lockInvoices _) (fun _ => writes_finishCancel _ _)

theorem writes_applyCollection (collection : Id) (applies : List (Id × Decimal)) :
    (applyCollection collection applies).Writes W again := by
  refine .bind .require (fun _ => .bind (writes_lockInvoices _) (fun _ =>
    .bind (writes_lockDocument _ _) (fun locked => .bind .observe (fun _ => ?_))))
  split
  · exact .bind .fetch (fun _ => .bind (writes_applyTo _ _ _ _ _) (fun _ =>
      .bind (writes_syncInvoices _) (fun _ => trivial)))
  · trivial

theorem writes_accountForCustomer (company customer : Id) (currency : String) :
    (accountForCustomer company customer currency).Writes W again := by
  refine .bind .find (fun live => ?_)
  cases live with
  | some account => trivial
  | none =>
      refine .bind .lock (fun _ => .bind .observe (fun theirs => ?_))
      cases theirs with
      | some account => trivial
      | none =>
          exact .bind .fresh (fun _ => .bind (.write (Covers.addAccount _ _)) (fun _ => trivial))

theorem writes_createDefaultCashAccount (company : Id) : (createDefaultCashAccount company).Writes W again := by
  refine .bind .find (fun till => ?_)
  cases till with
  | some till => trivial
  | none =>
      refine .bind .lock (fun _ => .bind .observe (fun theirs => ?_))
      cases theirs with
      | some till => trivial
      | none =>
          exact .bind .fresh (fun _ => .bind (.write (Covers.addCashAccount _ _)) (fun _ => trivial))

theorem writes_tillFor (draft : InvoiceDraft) (cashAccount : Option (Id × CashAccount)) :
    (tillFor draft cashAccount).Writes W again := by
  cases cashAccount with
  | some till => trivial
  | none =>
      have default : (defaultCashAccount draft.company).Writes W again :=
        .bind (writes_createDefaultCashAccount _) (fun _ => .bind .require (fun _ => trivial))
      exact .bind default (fun _ => .bind .require (fun _ => trivial))

theorem writes_postInvoice (id : Id) : (postInvoice id).Writes W again := by
  refine .bind (writes_lockInvoice _) (fun locked => .bind .require (fun _ => ?_))
  cases locked.invoiceDate with
  | none => trivial
  | some date =>
      refine .bind .observe (fun posted => ?_)
      split
      · trivial
      · exact .bind (writes_accountForCustomer _ _ _) (fun _ =>
          .bind (writes_post _ _ _ _ _ _ _ _ _) (fun _ => trivial))

theorem writes_reverseInvoice (id : Id) : (reverseInvoice id).Writes W again := by
  refine .bind (writes_lockInvoice _) (fun _ => .bind .ensure (fun _ => .bind .observe (fun posted => ?_)))
  split
  · exact .bind .peek (fun _ => writes_reverseDocument _ _ _)
  · trivial

theorem writes_issue (id : Id) (number : String) (date : Date) : (issue id number date).Writes W again :=
  .bind (writes_lockInvoice _) (fun _ => .bind .require (fun _ => .bind .require (fun _ =>
    .bind .peek (fun _ => .bind .require (fun _ => .bind (.write (Covers.updateInvoice _ _)) (fun _ =>
      .bind (writes_postInvoice _) (fun _ => .bind (writes_syncInvoiceStatus _) (fun _ => trivial))))))))

theorem writes_cancelInvoice (id : Id) (reason : String) : (cancelInvoice id reason).Writes W again := by
  refine .bind (writes_lockInvoice _) (fun draft => .bind .require (fun _ => ?_))
  dsimp only
  split
  · exact .bind trivial (fun _ => .bind .peek (fun _ => .bind (.write (Covers.updateInvoice _ _)) (fun _ => trivial)))
  · exact .bind (writes_reverseInvoice _) (fun _ =>
      .bind .peek (fun _ => .bind (.write (Covers.updateInvoice _ _)) (fun _ => trivial)))

/-- A document without a number, and the movements of it. -/
theorem writes_enter {α : Type} {document : Document}
    (unnumbered : ∀ numberPrefix, document.body.number? numberPrefix = none) {rest : Id -> LedgerProg α}
    (calm : ∀ id, (rest id).Writes W again) : (do
      let id ← fresh
      write (Books.addDocument id document)
      rest id : LedgerProg α).Writes W again :=
  .bind .fresh (fun id => .bind (.write (Covers.addDocument _ _ unnumbered)) (fun _ => calm id))

theorem writes_recordManualEntry (account : Id × Account) (direction : Option Direction) (amount : Decimal)
    (date : Date) (reason : String) :
    (recordManualEntry account direction amount date reason).Writes W again :=
  .bind .require (fun _ => .bind (writes_checkDirection _) (fun _ => .bind (writes_checkAmount _) (fun _ =>
    writes_enter (fun _ => rfl) (fun _ => .bind (writes_post _ _ _ _ _ _ _ _ _) (fun _ => trivial)))))

theorem writes_recordTransfer (kind : Option TransferKind) (amount : Decimal) (date : Date)
    (fromAccount toAccount : Option (Id × Account)) (fromCash toCash : Option (Id × CashAccount)) :
    (recordTransfer kind amount date fromAccount toAccount fromCash toCash).Writes W again := by
  unfold recordTransfer
  split
  · trivial
  · exact .bind .require (fun _ => .bind (writes_checkTransfer _ _ _ _ _ _) (fun _ =>
      .bind (writes_checkAmount _) (fun _ => .bind (writes_lockSides _ _) (fun _ =>
        writes_enter (fun _ => rfl) (fun _ => .bind (writes_post _ _ _ _ _ _ _ _ _) (fun _ =>
          .bind (writes_post _ _ _ _ _ _ _ _ _) (fun _ => trivial)))))))
  · exact .bind .require (fun _ => .bind (writes_checkTransfer _ _ _ _ _ _) (fun _ =>
      .bind (writes_checkAmount _) (fun _ => .bind (writes_lockSides _ _) (fun _ =>
        writes_enter (fun _ => rfl) (fun _ => .bind (writes_post _ _ _ _ _ _ _ _ _) (fun _ =>
          .bind (writes_post _ _ _ _ _ _ _ _ _) (fun _ => trivial)))))))

theorem writes_recordOpening (direction : Option Direction) (amount : Decimal) (date : Date)
    (account : Option (Id × Account)) (cashAccount : Option (Id × CashAccount)) :
    (recordOpening direction amount date account cashAccount).Writes W again := by
  have checked : ∀ side field, (checkOpening side field date).Writes W again := fun _ _ =>
    .bind .ensure (fun _ => .ensure)
  unfold recordOpening
  split
  · exact .bind (writes_checkDirection _) (fun _ => .bind (writes_checkAmount _) (fun _ =>
      .bind (writes_lockSides _ _) (fun _ => .bind (checked _ _) (fun _ =>
        writes_enter (fun _ => rfl) (fun _ => .bind (writes_post _ _ _ _ _ _ _ _ _) (fun _ => trivial))))))
  · exact .bind (writes_checkDirection _) (fun _ => .bind (writes_checkAmount _) (fun _ =>
      .bind (writes_lockSides _ _) (fun _ => .bind (checked _ _) (fun _ =>
        writes_enter (fun _ => rfl) (fun _ => .bind (writes_post _ _ _ _ _ _ _ _ _) (fun _ => trivial))))))
  · trivial

theorem writes_setClosedThrough (company : Id) (day : Option Date) :
    (setClosedThrough company day).Writes W again := by
  refine .bind .peek (fun _ => .bind .require (fun _ => .bind .lock (fun _ => .bind .fetch (fun row => ?_))))
  split
  · trivial
  · exact .bind (.write (Covers.setClosedThrough _ _)) (fun _ => trivial)

end Covers

/-! ## Requests -/

section CoversNumbers

variable [CoversNumbers W]

theorem writes_nextNumber (company : Id) (numberPrefix : NumberPrefix) :
    (nextNumber company numberPrefix).Writes W again :=
  .bind .lock (fun _ => .bind .observe (fun _ => .bind (.write (CoversNumbers.setCounter _ _ _)) (fun _ => trivial)))

theorem writes_recordCollection (account : Id × Account) (cashAccount : Id × CashAccount) (amount : Decimal)
    (method : Option PaymentMethod) (date : Date) (applies : List (Id × Decimal)) :
    (recordCollection account cashAccount amount method date applies).Writes W again :=
  .bind .require (fun _ => .bind (writes_checkMethod _) (fun _ => .bind (writes_checkAmount _) (fun _ =>
    .bind (writes_lockInvoices _) (fun _ => .bind (writes_nextNumber _ _) (fun _ =>
      .bind .fresh (fun _ => .bind (.write (CoversNumbers.addNumbered _ _)) (fun _ =>
        .bind (writes_applyTo _ _ _ _ _) (fun _ => .bind (writes_post _ _ _ _ _ _ _ _ _) (fun _ =>
          .bind (writes_syncInvoices _) (fun _ => trivial))))))))))

theorem writes_recordPaymentOut (account : Id × Account) (cashAccount : Id × CashAccount) (amount : Decimal)
    (method : Option PaymentMethod) (date : Date) :
    (recordPaymentOut account cashAccount amount method date).Writes W again :=
  .bind .require (fun _ => .bind (writes_checkMethod _) (fun _ => .bind (writes_checkAmount _) (fun _ =>
    .bind (writes_nextNumber _ _) (fun _ => .bind .fresh (fun _ =>
      .bind (.write (CoversNumbers.addNumbered _ _)) (fun _ =>
        .bind (writes_post _ _ _ _ _ _ _ _ _) (fun _ => trivial)))))))

theorem writes_markPaid (id : Id) (paidOn : Date) (cashAccount : Option (Id × CashAccount))
    (method : Option PaymentMethod) : (markPaid id paidOn cashAccount method).Writes W again :=
  .bind (writes_lockInvoice _) (fun _ => .bind .observe (fun _ => .bind .require (fun _ =>
    .bind (writes_tillFor _ _) (fun _ => .bind .observe (fun _ =>
      .bind (writes_accountForCustomer _ _ _) (fun _ => writes_recordCollection _ _ _ _ _ _))))))

theorem writes_service (q : Request) : q.service.Writes W True := by
  cases q with
  | recordCollection account cashAccount amount method date applies =>
      exact .bind (writes_findAccount _) (fun _ => .bind (writes_findCashAccount _) (fun _ =>
        writes_recordCollection _ _ _ _ _ _))
  | applyCollection collection applies => exact writes_applyCollection _ _
  | cancelCollection collection => exact writes_cancelCollection _ _
  | recordPaymentOut account cashAccount amount method date =>
      exact .bind (writes_findAccount _) (fun _ => .bind (writes_findCashAccount _) (fun _ =>
        writes_recordPaymentOut _ _ _ _ _))
  | recordManualEntry account direction amount date reason =>
      exact .bind (writes_findAccount _) (fun _ => writes_recordManualEntry _ _ _ _ _)
  | recordTransfer kind amount date fromAccount toAccount fromCash toCash =>
      exact .bind (writes_findOptional writes_findAccount _) (fun _ =>
        .bind (writes_findOptional writes_findAccount _) (fun _ =>
          .bind (writes_findOptional writes_findCashAccount _) (fun _ =>
            .bind (writes_findOptional writes_findCashAccount _) (fun _ =>
              writes_recordTransfer _ _ _ _ _ _ _))))
  | recordOpening direction amount date account cashAccount =>
      exact .bind (writes_findOptional writes_findAccount _) (fun _ =>
        .bind (writes_findOptional writes_findCashAccount _) (fun _ => writes_recordOpening _ _ _ _ _))
  | cancelPaymentOut payment => exact writes_cancelDocument _ _
  | cancelManualEntry entry => exact writes_cancelDocument _ _
  | cancelTransfer transfer => exact writes_cancelDocument _ _
  | cancelOpening opening => exact writes_cancelDocument _ _
  | issue invoice number date => exact writes_issue _ _ _
  | markPaid invoice paidOn cashAccount method =>
      exact .bind (writes_findOptional writes_findCashAccount _) (fun _ => writes_markPaid _ _ _ _)
  | cancelInvoice invoice reason => exact writes_cancelInvoice _ _
  | setClosedThrough company day => exact writes_setClosedThrough _ _
  | today day => exact .bind (.write (Covers.setClock _)) (fun _ => trivial)

theorem writes_serve (q : Request) : (serve q).Writes W True :=
  .bind (writes_service q) (fun _ => writes_checkForeignKeys _)

end CoversNumbers

/-! ## What every update keeps -/

/-- What every update keeps holds of whatever is committed. -/
theorem Reachable.of_kept {J : Books -> Prop} [CoversNumbers (fun f => ∀ v, J v -> J (f v))]
    (start : ∀ s nextId, Unposted s nextId -> J s) {v : Books} (reachable : Reachable v) : J v := by
  rcases reachable with ⟨s, nextId, events, unposted, rfl⟩
  have kept (q : Request) (s : Books) : Ends convention (serve q) s (.start 0)
      (fun s' _ t => J s' -> J (t.writes s')) :=
    (writes_serve (W := fun f => ∀ v, J v -> J (f v)) q).ends (J := fun s g => J s -> J (g s))
      (fun here => here) (fun _ _ _ keeps before here => keeps _ (before here)) (fun _ _ _ here => here)
  have consistent : Consistent convention (fun q s s' seen => Change q s s' seen ∧ (J s -> J s'))
      (Machine.init s nextId : Machine Books Row Note LedgerError Request Unit) :=
    .init _ _ unposted.inv (fun _ above => unposted.unused above)
  refine consistent.invariant (disciplined.and (fun q s _ => kept q s)) (start s nextId unposted) ?_ events
  intro _ _ _ _ _ here changed
  exact changed.2 here

end Ledger
end Shiftlush
