import Shiftlush.Ledger.Invariant

namespace Shiftlush
namespace Ledger

/-!
# Steps that keep the books sound

What a transaction of the ledger leaves behind is put together from a few
changes of the tables: a document entered with its movements, applications
added, a document or an invoice reversed, an invoice issued, and what does not
concern money at all.  Each keeps `SoundBooks`; syncing the invoices they
touched then gives `Inv`.
-/

/-! ## What a clause of the invariant reads -/

theorem Known.mono {v w : Books} {ref : DocumentRef} (known : Known v ref)
    (invoices : ∀ id i, v.invoices.get? id = some i -> ∃ i', w.invoices.get? id = some i')
    (documents : ∀ id d, v.documents.get? id = some d ->
      ∃ d', w.documents.get? id = some d' ∧ d'.body = d.body) : Known w ref := by
  cases known with
  | invoice same found =>
      rcases invoices _ _ found with ⟨i', found'⟩
      exact .invoice same found'
  | @document id d same found =>
      rcases documents _ _ found with ⟨d', found', body⟩
      refine @Known.document w ref id d' ?_ found'
      rw [same]
      unfold Document.ref
      rw [body]

theorem InOwnCurrency.mono {v w : Books} {m : Movement} (own : InOwnCurrency v m)
    (accounts : ∀ id a, v.accounts.get? id = some a -> w.accounts.get? id = some a)
    (cashAccounts : ∀ id a, v.cashAccounts.get? id = some a -> w.cashAccounts.get? id = some a) :
    InOwnCurrency w m where
  account id direction side := by
    rcases own.account id direction side with ⟨row, found, currency⟩
    exact ⟨row, accounts id row found, currency⟩
  cashAccount id direction side := by
    rcases own.cashAccount id direction side with ⟨row, found, currency⟩
    exact ⟨row, cashAccounts id row found, currency⟩

theorem Paired.mono {v w : Books} {a : CollectionApplication} (paired : Paired v a)
    (documents : ∀ id d, v.documents.get? id = some d ->
      ∃ d', w.documents.get? id = some d' ∧ d'.body = d.body)
    (invoices : ∀ id i, v.invoices.get? id = some i -> ∃ i', w.invoices.get? id = some i' ∧
      i'.customer = i.customer ∧ i'.currency = i.currency ∧ (i.status ≠ .draft -> i'.status ≠ .draft))
    (accounts : ∀ id a, v.accounts.get? id = some a -> w.accounts.get? id = some a) : Paired w a := by
  rcases paired.pair with ⟨collection, draft, account, row, cashAccount, number, method,
    at_collection, body, at_account, at_invoice, status, party, currency⟩
  rcases documents _ _ at_collection with ⟨collection', at_collection', body'⟩
  rcases invoices _ _ at_invoice with ⟨draft', at_invoice', customer', currency', status'⟩
  refine ⟨paired.positive, collection', draft', account, row, cashAccount, number, method,
    at_collection', body'.trans body, accounts _ _ at_account, at_invoice', status' status, ?_, ?_⟩
  · rw [customer']
    exact party
  · rw [currency']
    exact currency

theorem InvoiceEntered.congr {v w : Books} {id : Id} {draft : InvoiceDraft}
    (entered : InvoiceEntered v id draft)
    (same : w.movementsOf (invoiceRef id) = v.movementsOf (invoiceRef id))
    (live : ∀ customer currency r, v.accountOf customer currency = some r ->
      w.accountOf customer currency = some r) : InvoiceEntered w id draft := by
  cases entered with
  | unposted standing empty => exact .unposted standing (same.trans empty)
  | @posted account status customer entered =>
      refine @InvoiceEntered.posted w id draft account status ?_ (entered.congr same)
      intro total
      rcases customer total with ⟨row, found⟩
      exact ⟨row, live _ _ _ found⟩

theorem invoiceCollected_congr {v w : Books} {id : Id}
    (applications : w.applicationsOn id = v.applicationsOn id)
    (stands : ∀ r ∈ v.applicationsOn id, w.stands r.2.collection = v.stands r.2.collection) :
    w.invoiceCollected id = v.invoiceCollected id := by
  unfold Books.invoiceCollected
  rw [applications]
  apply Rows.total_congr
  intro r mem
  rw [stands r mem]

theorem Synced.congr {v w : Books} {id : Id} (synced : Synced v id)
    (row : w.invoices.get? id = v.invoices.get? id)
    (collected : w.invoiceCollected id = v.invoiceCollected id) : Synced w id := by
  intro i found standing
  have before := synced i (row.symm.trans found) standing
  unfold Books.invoiceRemaining at before ⊢
  rw [collected]
  exact before

namespace SoundBooks

variable {v : Books}

/-- The collection of an application is there. -/
theorem collection_there (sound : SoundBooks v) {r : Id × CollectionApplication}
    (mem : r ∈ v.applications) : ∃ d, v.documents.get? r.2.collection = some d := by
  rcases (sound.applied r mem).pair with ⟨d, _, _, _, _, _, _, found, _⟩
  exact ⟨d, found⟩

end SoundBooks

/-! ## Movements of one document, appended -/

/-- `w` has the movements of `v` and then `rows`, all of the document `ref`. -/
structure Posts (v w : Books) (ref : DocumentRef) (rows : Rows Movement) : Prop where
  appended : w.movements = v.movements ++ rows
  document : ∀ r ∈ rows, r.2.document = ref
  keys : Rows.Distinct rows
  fresh : ∀ r ∈ rows, v.movements.get? r.1 = none

namespace Posts

variable {v w : Books} {ref : DocumentRef} {rows : Rows Movement}

theorem movementsOf_self (posts : Posts v w ref rows) :
    w.movementsOf ref = v.movementsOf ref ++ rows := by
  have all : rows.filter (fun r => r.2.document = ref) = rows :=
    List.filter_eq_self.mpr (fun r mem => decide_eq_true (posts.document r mem))
  unfold Books.movementsOf
  rw [posts.appended, List.filter_append, all]

theorem movementsOf_other (posts : Posts v w ref rows) {ref' : DocumentRef} (other : ref' ≠ ref) :
    w.movementsOf ref' = v.movementsOf ref' := by
  have no : rows.filter (fun r => r.2.document = ref') = [] := by
    apply List.filter_eq_nil_iff.mpr
    intro r mem same
    exact other ((of_decide_eq_true same).symm.trans (posts.document r mem))
  unfold Books.movementsOf
  rw [posts.appended, List.filter_append, no, List.append_nil]

theorem movementKeys (posts : Posts v w ref rows) (distinct : v.movements.Distinct) :
    w.movements.Distinct := by
  rw [posts.appended]
  exact distinct.append posts.keys posts.fresh

theorem unreversedOn (posts : Posts v w ref rows) {side : Side} {r : Id × Movement}
    (mem : r ∈ w.unreversedOn side) :
    r ∈ v.unreversedOn side ∨ (r ∈ rows ∧ r.2.on side = true ∧ r.2.reverses = none) := by
  unfold Books.unreversedOn Books.isReversed at mem
  rw [posts.appended] at mem
  rcases List.mem_filter.mp mem with ⟨member, passes⟩
  simp only [List.any_append, Bool.not_or, Bool.and_eq_true, Option.isNone_iff_eq_none] at passes
  rcases passes with ⟨⟨on, original⟩, before, _⟩
  rcases List.mem_append.mp member with member | member
  · left
    unfold Books.unreversedOn Books.isReversed
    exact List.mem_filter.mpr ⟨member, by simp [on, original, before]⟩
  · right
    exact ⟨member, on, original⟩

theorem known (posts : Posts v w ref rows) (old : ∀ r ∈ v.movements, Known w r.2.document)
    (new : Known w ref) : ∀ r ∈ w.movements, Known w r.2.document := by
  intro r mem
  rw [posts.appended] at mem
  rcases List.mem_append.mp mem with mem | mem
  · exact old r mem
  · rw [posts.document r mem]
    exact new

theorem currencies (posts : Posts v w ref rows)
    (old : ∀ r ∈ v.movements, InOwnCurrency w r.2) (new : ∀ r ∈ rows, InOwnCurrency w r.2) :
    ∀ r ∈ w.movements, InOwnCurrency w r.2 := by
  intro r mem
  rw [posts.appended] at mem
  rcases List.mem_append.mp mem with mem | mem
  · exact old r mem
  · exact new r mem

end Posts

/-! ## What has nothing to do with money -/

def OneAccount (v : Books) : Prop :=
  ∀ id a customer, v.accounts.get? id = some a -> a.party = .customer customer ->
    v.accountOf customer a.currency = some (id, a)

/-- Accounts may have been opened; the rest is as it was. -/
structure Grows (v w : Books) : Prop where
  movements : w.movements = v.movements
  documents : w.documents = v.documents
  invoices : w.invoices = v.invoices
  applications : w.applications = v.applications
  accounts : ∀ id a, v.accounts.get? id = some a -> w.accounts.get? id = some a
  cashAccounts : ∀ id a, v.cashAccounts.get? id = some a -> w.cashAccounts.get? id = some a
  live : ∀ customer currency r, v.accountOf customer currency = some r ->
    w.accountOf customer currency = some r
  single : OneAccount v -> OneAccount w
  accountKeys : v.accounts.Distinct -> w.accounts.Distinct
  cashAccountKeys : v.cashAccounts.Distinct -> w.cashAccounts.Distinct

namespace Grows

theorem refl (v : Books) : Grows v v :=
  ⟨rfl, rfl, rfl, rfl, fun _ _ found => found, fun _ _ found => found, fun _ _ _ found => found,
    fun single => single, fun keys => keys, fun keys => keys⟩

theorem trans {u v w : Books} (first : Grows u v) (second : Grows v w) : Grows u w where
  movements := second.movements.trans first.movements
  documents := second.documents.trans first.documents
  invoices := second.invoices.trans first.invoices
  applications := second.applications.trans first.applications
  accounts id a found := second.accounts id a (first.accounts id a found)
  cashAccounts id a found := second.cashAccounts id a (first.cashAccounts id a found)
  live customer currency r found := second.live _ _ _ (first.live customer currency r found)
  single single := second.single (first.single single)
  accountKeys keys := second.accountKeys (first.accountKeys keys)
  cashAccountKeys keys := second.cashAccountKeys (first.cashAccountKeys keys)

end Grows

theorem SoundBooks.grows {v w : Books} (sound : SoundBooks v) (grows : Grows v w) :
    SoundBooks w := by
  have movementsOf : ∀ ref, w.movementsOf ref = v.movementsOf ref := by
    intro ref
    unfold Books.movementsOf
    rw [grows.movements]
  have collected : ∀ id, w.invoiceCollected id = v.invoiceCollected id := by
    intro id
    unfold Books.invoiceCollected Books.applicationsOn Books.stands
    rw [grows.applications, grows.documents]
  refine
    { movementKeys := grows.movements ▸ sound.movementKeys
      documentKeys := grows.documents ▸ sound.documentKeys
      invoiceKeys := grows.invoices ▸ sound.invoiceKeys
      accountKeys := grows.accountKeys sound.accountKeys
      cashAccountKeys := grows.cashAccountKeys sound.cashAccountKeys
      documents := ?_, invoices := ?_, marked := ?_, known := ?_, currencies := ?_
      accounts := grows.single sound.accounts
      applied := ?_, collected := ?_, unpaid := ?_, allocated := ?_, openings := ?_
      openingFirst := ?_ }
  · intro id d found
    rw [grows.documents] at found
    exact (sound.documents id d found).congr (movementsOf _)
  · intro id i found
    rw [grows.invoices] at found
    exact (sound.invoices id i found).congr (movementsOf _) grows.live
  · rw [grows.invoices]
    exact sound.marked
  · intro r mem
    rw [grows.movements] at mem
    apply (sound.known r mem).mono
    · intro id i found
      exact ⟨i, grows.invoices ▸ found⟩
    · intro id d found
      exact ⟨d, grows.documents ▸ found, rfl⟩
  · intro r mem
    rw [grows.movements] at mem
    exact (sound.currencies r mem).mono grows.accounts grows.cashAccounts
  · intro r mem
    rw [grows.applications] at mem
    apply (sound.applied r mem).mono
    · intro id d found
      exact ⟨d, grows.documents ▸ found, rfl⟩
    · intro id i found
      exact ⟨i, grows.invoices ▸ found, rfl, rfl, fun status => status⟩
    · exact grows.accounts
  · intro id i found standing
    rw [collected]
    exact sound.collected id i (grows.invoices ▸ found) standing
  · unfold Books.applicationsOn Books.stands
    rw [grows.applications, grows.documents, grows.invoices]
    exact sound.unpaid
  · unfold Books.allocated Books.applicationsOf
    rw [grows.applications, grows.documents]
    exact sound.allocated
  · unfold Books.standingOpenings
    rw [grows.documents]
    exact sound.openings
  · unfold Books.standingOpenings Books.unreversedOn Books.isReversed
    rw [grows.documents, grows.movements]
    exact sound.openingFirst

theorem Grows.synced {v w : Books} (grows : Grows v w) {id : Id} (synced : Synced v id) :
    Synced w id := by
  apply synced.congr
  · rw [grows.invoices]
  · unfold Books.invoiceCollected Books.applicationsOn Books.stands
    rw [grows.applications, grows.documents]

end Ledger
end Shiftlush
