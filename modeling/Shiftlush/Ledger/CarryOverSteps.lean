import Shiftlush.Ledger.CarryOver

namespace Shiftlush
namespace Ledger

open Transactions

/-!
# What carrying a draft writes

The programs of the ledger, run alone: what each adds to the four tables an
invoice is read from.
-/

/-- The tables an invoice is read from. -/
structure Tables where
  invoices : Rows InvoiceDraft
  documents : Rows Document
  applications : Rows CollectionApplication
  movements : Rows Movement

def Books.tables (v : Books) : Tables := ⟨v.invoices, v.documents, v.applications, v.movements⟩

variable {s view : Books} {next : Nat}

/-- A program that changes nothing. -/
abbrev Still {α : Type} (p : LedgerProg α) : Prop :=
  ∀ (s view : Books) (next : Nat), Yields s p (fun _ v n => v = view ∧ n = next) view next

theorem Still.bind {α β : Type} {p : LedgerProg α} (still : Still p) {f : α -> LedgerProg β}
    {post : β -> Books -> Nat -> Prop} (rest : ∀ a, Yields s (f a) post view next) :
    Yields s (p >>= f) post view next := by
  refine Yields.bind ((still s view next).mono ?_)
  rintro a v n _ ⟨rfl, rfl⟩
  exact rest a

theorem still_checkDate (company : Id) (day : Date) : Still (checkDate company day) := by
  intro s view next
  unfold checkDate
  refine Yields.bind (yields_peekLogged ?_)
  split
  · exact yields_raise
  · refine Yields.bind (yields_peek (Yields.bind (yields_require ?_)))
    intro _
    exact yields_require (fun _ => ⟨rfl, rfl⟩)

theorem still_lockSides (accounts cashAccounts : List Id) : Still (lockSides accounts cashAccounts) := by
  intro s view next
  unfold lockSides
  have locks (ids : List Id) (row : Id -> Row) :
      Still (forEach (sortedKeys ids) (fun id => (lock .update (row id) : LedgerProg Unit))) :=
    fun s view next => yields_forEach (fun id _ => yields_lock ⟨rfl, rfl⟩)
  refine (locks accounts Row.account).bind (fun _ => (locks cashAccounts Row.cashAccount).bind ?_)
  intro _
  exact yields_done ⟨rfl, rfl⟩

theorem still_checkAfterOpening (account cashAccount : Option Id) (day : Date) :
    Still (checkAfterOpening account cashAccount day) := by
  intro s view next
  unfold checkAfterOpening
  refine Yields.bind ((yields_forEach (fun side _ => yields_ensure (fun _ => ⟨rfl, rfl⟩))).mono ?_)
  rintro answers v n _ ⟨rfl, rfl⟩
  exact yields_done ⟨rfl, rfl⟩

theorem still_lockInvoices (ids : List Id) : Still (lockInvoices ids) := by
  intro s view next
  unfold lockInvoices
  refine Yields.bind ((yields_forEach (fun id _ => yields_lock ⟨rfl, rfl⟩)).mono ?_)
  rintro answers v n _ ⟨rfl, rfl⟩
  exact yields_done ⟨rfl, rfl⟩

theorem yields_addMovement {m : Movement} {post : Id × Movement -> Books -> Nat -> Prop}
    (holds : post (next, m) (view.addMovement next m) (next + 1)) :
    Yields s (do
      let id ← fresh
      write (Books.addMovement id m)
      return (id, m) : LedgerProg (Id × Movement)) post view next := by
  refine Yields.bind (yields_fresh ?_)
  refine Yields.bind (yields_write ?_)
  exact yields_done holds

/-- The movement `post` writes is what it was asked for. -/
theorem yields_post {account : Option (Id × Account)} {cashAccount : Option (Id × CashAccount)}
    {direction : Option Direction} {cashDirection : Option CashDirection} {amount : Decimal}
    {currency : String} {date : Date} {source : MovementSource} {document : DocumentRef}
    {post' : Id × Movement -> Books -> Nat -> Prop}
    (holds : ∀ movement : Movement, movement.account = sided account direction ->
      movement.amount = amount.cents?.getD 0 -> movement.source = source -> movement.document = document ->
        amount.isMoney = true -> post' (next, movement) (view.addMovement next movement) (next + 1)) :
    Yields s (post account cashAccount direction cashDirection amount currency date source document) post'
      view next := by
  unfold post
  refine Yields.bind (yields_require (fun _ => Yields.bind (yields_require (fun _ =>
    Yields.bind (yields_require (fun _ => Yields.bind (yields_require (fun _ =>
      Yields.bind (yields_require ?_)))))))))
  intro isMoney
  dsimp only
  split
  · refine Yields.bind (yields_require (fun _ => ?_))
    refine (still_checkDate _ date).bind (fun _ => (still_lockSides _ _).bind (fun _ => ?_))
    split
    · exact yields_addMovement (holds _ rfl rfl rfl rfl isMoney)
    · refine (still_checkAfterOpening _ _ date).bind ?_
      intro _
      exact yields_addMovement (holds _ rfl rfl rfl rfl isMoney)
  · exact yields_raise

/-! ## Accounts and tills -/

theorem yields_accountForCustomer {company customer : Id} {currency : String}
    {post : Id × Account -> Books -> Nat -> Prop}
    (holds : ∀ account v n, v.tables = view.tables -> next ≤ n -> post account v n) :
    Yields s (accountForCustomer company customer currency) post view next := by
  unfold accountForCustomer
  refine Yields.bind (yields_find ?_)
  split
  · exact yields_done (holds _ view next rfl (Nat.le_refl next))
  · refine Yields.bind (yields_lock ?_)
    refine Yields.bind (yields_observe ?_)
    split
    · exact yields_done (holds _ view next rfl (Nat.le_refl next))
    · refine Yields.bind (yields_fresh ?_)
      refine Yields.bind (yields_write ?_)
      exact yields_done (holds _ _ (next + 1) rfl (Nat.le_succ next))

theorem yields_carriedOverCashAccount {company : Id} {currency : String}
    {post : Id × CashAccount -> Books -> Nat -> Prop}
    (holds : ∀ till v n, v.tables = view.tables -> next ≤ n -> post till v n) :
    Yields s (carriedOverCashAccount company currency) post view next := by
  unfold carriedOverCashAccount
  refine Yields.bind (yields_find ?_)
  split
  · exact yields_done (holds _ view next rfl (Nat.le_refl next))
  · refine Yields.bind (yields_fresh ?_)
    refine Yields.bind (yields_write ?_)
    exact yields_done (holds _ _ (next + 1) rfl (Nat.le_succ next))

theorem yields_nextNumber {company : Id} {numberPrefix : NumberPrefix} {post : Nat -> Books -> Nat -> Prop}
    (holds : ∀ number v, v.tables = view.tables -> post number v next) :
    Yields s (nextNumber company numberPrefix) post view next := by
  unfold nextNumber
  refine Yields.bind (yields_lock ?_)
  refine Yields.bind (yields_observe ?_)
  refine Yields.bind (yields_write ?_)
  exact yields_done (holds _ _ rfl)

theorem yields_lockInvoice {id : Id} {post : InvoiceDraft -> Books -> Nat -> Prop}
    (holds : ∀ draft, view.invoices.get? id = some draft -> post draft view next) :
    Yields s (lockInvoice id) post view next := by
  unfold lockInvoice
  refine Yields.bind (yields_lock ?_)
  exact yields_fetch holds

/-! ## The debit -/

/-- The debit of an invoice. -/
structure IsDebit (id : Id) (draft : InvoiceDraft) (m : Movement) : Prop where
  account : ∃ account, m.account = some (account, .debit)
  amount : m.amount = draft.total
  source : m.source = .invoice
  document : m.document = ⟨.invoiceDraft, id⟩

theorem yields_postInvoiceOn {id : Id} {day : Option Date} {post : Rows Movement -> Books -> Nat -> Prop}
    {draft : InvoiceDraft} (found : view.invoices.get? id = some draft)
    (already : view.invoicePosted id = true ∨ draft.total = 0 -> draft.invoiceDate.isSome = true ->
      post [] view next)
    (posts : ∀ key m v n, view.invoicePosted id = false -> draft.total ≠ 0 -> draft.invoiceDate.isSome = true ->
      IsDebit id draft m -> next ≤ key -> key < n ->
        v.tables = { view.tables with movements := view.movements.insert key m } -> post [(key, m)] v n) :
    Yields s (postInvoiceOn id day) post view next := by
  unfold postInvoiceOn
  refine Yields.bind (yields_lockInvoice ?_)
  intro locked here
  rw [found] at here
  cases here
  refine Yields.bind (yields_require ?_)
  intro _
  cases dated : draft.invoiceDate with
  | none => exact yields_raise
  | some date =>
      have dated' : draft.invoiceDate.isSome = true := by rw [dated, Option.isSome_some]
      refine Yields.bind (yields_observe ?_)
      split
      · rename_i done
        exact yields_done (already done dated')
      · rename_i todo
        rw [not_or, Bool.not_eq_true] at todo
        refine Yields.bind (yields_accountForCustomer ?_)
        intro account v n same le
        refine Yields.bind (yields_post ?_)
        intro m at_account amount source document _
        rw [Decimal.cents?_ofCents, Option.getD_some] at amount
        refine yields_done (posts n m _ (n + 1) todo.1 todo.2 dated' ⟨⟨_, at_account⟩, amount, source, document⟩ le
          (Nat.lt_succ_self n) ?_)
        have same' : v.movements = view.movements := congrArg Tables.movements same
        have invoices := congrArg Tables.invoices same
        have documents := congrArg Tables.documents same
        have applications := congrArg Tables.applications same
        unfold Books.tables Books.addMovement at *
        dsimp only at *
        rw [same', invoices, documents, applications]

/-! ## The status -/

/-- What `sync_invoice_status` makes of an invoice. -/
structure Settled (view v : Books) (id : Id) (draft : InvoiceDraft) : Prop where
  rest : v.tables = { view.tables with invoices := v.invoices }
  keys : v.invoices.map Prod.fst = view.invoices.map Prod.fst
  others : ∀ id', id' ≠ id -> v.invoices.get? id' = view.invoices.get? id'
  own : v.invoices.get? id =
    some (if draft.standing then draft.settle (view.settlement id draft) else draft)

theorem settle_self {draft : InvoiceDraft} {settlement : InvoiceStatus × Option Date}
    (same : (draft.status, draft.paidOn) = settlement) : draft.settle settlement = draft := by
  rw [← same]
  rfl

theorem settled_update {id : Id} {draft : InvoiceDraft} (found : view.invoices.get? id = some draft)
    (standing : draft.standing = true) :
    Settled view (view.updateInvoice id (·.settle (view.settlement id draft))) id draft := by
  have rows : (view.updateInvoice id (·.settle (view.settlement id draft))).invoices =
      view.invoices.update id (·.settle (view.settlement id draft)) := rfl
  refine ⟨rfl, ?_, ?_, ?_⟩
  · rw [rows, Rows.keys_update]
  · intro id' other
    rw [rows, Rows.get?_update_of_ne other]
  · rw [rows, Rows.get?_update_self, found, Option.map_some, if_pos standing]

theorem yields_syncInvoiceStatus {id : Id} {draft : InvoiceDraft} {post : Unit -> Books -> Nat -> Prop}
    (found : view.invoices.get? id = some draft) (holds : ∀ v, Settled view v id draft -> post () v next) :
    Yields s (syncInvoiceStatus id) post view next := by
  unfold syncInvoiceStatus
  refine Yields.bind (yields_fetch ?_)
  intro locked here
  rw [found] at here
  cases here
  split
  · rename_i standing
    refine Yields.bind (yields_observe ?_)
    split
    · rename_i same
      refine yields_done (holds view ⟨rfl, rfl, fun _ _ => rfl, ?_⟩)
      rw [if_pos standing, settle_self same, found]
    · exact yields_write (holds _ (settled_update found standing))
  · rename_i other
    refine yields_done (holds view ⟨rfl, rfl, fun _ _ => rfl, ?_⟩)
    rw [if_neg other, found]

theorem sortedKeys_singleton (id : Id) : sortedKeys [id] = [id] := by
  simp [sortedKeys]

theorem yields_syncInvoices {id : Id} (draft : InvoiceDraft) {post : Unit -> Books -> Nat -> Prop}
    (found : view.invoices.get? id = some draft) (holds : ∀ v, Settled view v id draft -> post () v next) :
    Yields s (syncInvoices [id]) post view next := by
  unfold syncInvoices
  rw [sortedKeys_singleton]
  refine Yields.bind (yields_forEach_single (yields_syncInvoiceStatus found ?_))
  intro v settled
  exact yields_done (holds v settled)

/-! ## The collection -/

/-- A collection of an amount, all of it applied to one invoice. -/
structure Collects (view v : Books) (next : Nat) (id : Id) (amount : Cents) (key : Id) (d : Document) :
    Prop where
  fresh : next ≤ key
  standing : d.standing = true
  sum : d.amount = amount
  isCollection : d.body.type = .collection
  documents : v.documents = view.documents.insert key d
  applications : ∃ key' company, v.applications = view.applications.insert key' ⟨company, key, id, amount⟩
  movements : ∃ key' m, v.movements = view.movements.insert key' m ∧ m.source = .collection

theorem yields_applyOne {collection company : Id} {account : Account} {share : Cents} {id : Id}
    {post : Unit -> Books -> Nat -> Prop}
    (holds : post () (view.addApplication next ⟨company, collection, id, share⟩) (next + 1)) :
    Yields s (applyOne collection company account share id) post view next := by
  unfold applyOne
  refine Yields.bind (yields_fetch ?_)
  intro invoice _
  refine Yields.bind (yields_require ?_)
  intro _
  refine Yields.bind (yields_require ?_)
  intro _
  refine Yields.bind (yields_ensure ?_)
  intro _
  refine Yields.bind (yields_ensure ?_)
  intro _
  refine Yields.bind (yields_fresh ?_)
  exact yields_write holds

theorem yields_applyTo {collection company : Id} {account : Account} {limit amount : Cents} {id : Id}
    {post : Unit -> Books -> Nat -> Prop}
    (holds : post () (view.addApplication next ⟨company, collection, id, amount⟩) (next + 1)) :
    Yields s (applyTo collection company account limit [(id, .ofCents amount)]) post view next := by
  unfold applyTo
  have parts : Yields s (checkApplies company [(id, .ofCents amount)])
      (fun parts v n => parts = [(id, amount)] ∧ v = view ∧ n = next) view next := by
    unfold checkApplies
    refine yields_forEach_single (Yields.bind (yields_fetch ?_))
    intro invoice _
    refine Yields.bind (yields_require ?_)
    intro _
    refine Yields.bind (yields_require ?_)
    intro _
    refine yields_done ⟨?_, rfl, rfl⟩
    rw [Decimal.cents?_ofCents, Option.getD_some]
  refine Yields.bind (parts.mono ?_)
  rintro _ v n _ ⟨rfl, rfl, rfl⟩
  refine Yields.bind (yields_require ?_)
  intro _
  rw [List.map_singleton, sortedKeys_singleton]
  have share : shareOf [(id, amount)] id = amount := by simp [shareOf]
  refine Yields.bind (yields_forEach_single (yields_applyOne ?_))
  rw [share]
  exact yields_done holds

theorem yields_recordCollection {account : Id × Account} {till : Id × CashAccount} {amount : Cents}
    {method : Option PaymentMethod} {date : Date} {id : Id} {draft : InvoiceDraft}
    {post : Rows Movement -> Books -> Nat -> Prop} (found : view.invoices.get? id = some draft)
    (holds : ∀ written key d w v n, Collects view w next id amount key d -> w.invoices = view.invoices ->
      Settled w v id draft -> key < n -> post written v n) :
    Yields s (recordCollection account till (.ofCents amount) method date [(id, .ofCents amount)]) post view
      next := by
  unfold recordCollection
  refine Yields.bind (yields_require ?_)
  intro _
  have method' : Still (checkMethod method) := by
    intro s view next
    cases method with
    | none => exact yields_raise
    | some method => exact yields_done ⟨rfl, rfl⟩
  refine method'.bind ?_
  intro method
  have cents : Yields s (checkAmount (.ofCents amount))
      (fun cents v n => cents = amount ∧ v = view ∧ n = next) view next := by
    unfold checkAmount
    refine Yields.bind (yields_require ?_)
    intro _
    refine yields_done ⟨?_, rfl, rfl⟩
    rw [Decimal.cents?_ofCents, Option.getD_some]
  refine Yields.bind (cents.mono ?_)
  rintro amount v n _ ⟨rfl, rfl, rfl⟩
  refine (still_lockInvoices _).bind ?_
  intro _
  refine Yields.bind (yields_nextNumber ?_)
  intro number u same
  refine Yields.bind (yields_fresh ?_)
  refine Yields.bind (yields_write ?_)
  refine Yields.bind (yields_applyTo ?_)
  refine Yields.bind (yields_post ?_)
  intro m _ _ source _ _
  have invoices : u.invoices = v.invoices := congrArg Tables.invoices same
  have documents : u.documents = v.documents := congrArg Tables.documents same
  have applications : u.applications = v.applications := congrArg Tables.applications same
  have movements : u.movements = v.movements := congrArg Tables.movements same
  refine Yields.bind (yields_syncInvoices draft ?_ ?_)
  · exact (congrArg (fun rows => Rows.get? rows id) invoices).trans found
  · intro v' settled
    let d : Document :=
      { company := account.2.company, body := .collection account.1 till.1 number method, amount := amount,
        date := date, cancelledAt := none }
    refine yields_done (holds _ n d _ v' _ ?_ ?_ settled ?_)
    · exact ⟨Nat.le_refl n, rfl, rfl, rfl, congrArg (fun rows => Rows.insert rows n _) documents,
        ⟨_, _, congrArg (fun rows => Rows.insert rows (n + 1) _) applications⟩,
        ⟨_, m, congrArg (fun rows => Rows.insert rows (n + 1 + 1) m) movements, source⟩⟩
    · exact invoices
    · exact Nat.lt_add_of_pos_right (k := 3) (by omega)

end Ledger
end Shiftlush
