import Shiftlush.Ledger.Vouchers

namespace Shiftlush
namespace Ledger

/-!
# The invariant of the books

`Sound` collects everything that holds between any two commits except the
derived status of an invoice; `Inv` adds that.  The split follows the code: a
write path changes documents, movements and applications first, and syncs the
invoices it touched last.
-/

/-- The entry of an invoice: none before it is issued, nor after it is
cancelled as a draft; otherwise its voucher on the customer's account. -/
inductive InvoiceEntered (v : Books) (id : Id) (draft : InvoiceDraft) : Prop where
  | unposted : draft.standing = false -> v.movementsOf (invoiceRef id) = [] ->
      InvoiceEntered v id draft
  | posted {account : Id} : draft.status ≠ .draft ->
      (draft.total ≠ 0 -> ∃ row, v.accountOf draft.customer draft.currency = some (account, row)) ->
      Entered v (draft.voucher id account) (!draft.standing) -> InvoiceEntered v id draft

/-- A movement is in the currency of each side it is on. -/
structure InOwnCurrency (v : Books) (m : Movement) : Prop where
  account : ∀ id direction, m.account = some (id, direction) ->
    ∃ row, v.accounts.get? id = some row ∧ row.currency = m.currency
  cashAccount : ∀ id direction, m.cashAccount = some (id, direction) ->
    ∃ row, v.cashAccounts.get? id = some row ∧ row.currency = m.currency

/-- An application pays an issued invoice from a collection on the account of
its own customer, in its own currency. -/
structure Paired (v : Books) (a : CollectionApplication) : Prop where
  positive : 0 < a.amount
  pair : ∃ collection draft account row cashAccount number method,
    v.documents.get? a.collection = some collection ∧
    collection.body = .collection account cashAccount number method ∧
    v.accounts.get? account = some row ∧ v.invoices.get? a.invoice = some draft ∧
    draft.status ≠ .draft ∧ row.party = .customer draft.customer ∧ row.currency = draft.currency

/-- The document a movement names is there. -/
inductive Known (v : Books) (ref : DocumentRef) : Prop where
  | invoice {id draft} : ref = invoiceRef id -> v.invoices.get? id = some draft -> Known v ref
  | document {id document} : ref = document.ref id -> v.documents.get? id = some document ->
      Known v ref

/-- Everything but the status of invoices. -/
structure SoundBooks (v : Books) : Prop where
  movementKeys : v.movements.Distinct
  documentKeys : v.documents.Distinct
  invoiceKeys : v.invoices.Distinct
  accountKeys : v.accounts.Distinct
  cashAccountKeys : v.cashAccounts.Distinct
  documents : ∀ id d, v.documents.get? id = some d -> Entered v (d.voucher id) (!d.standing)
  invoices : ∀ id i, v.invoices.get? id = some i -> InvoiceEntered v id i
  marked : ∀ id i, v.invoices.get? id = some i ->
    i.cancelledAt.isSome = decide (i.status = .cancelled)
  known : ∀ r ∈ v.movements, Known v r.2.document
  currencies : ∀ r ∈ v.movements, InOwnCurrency v r.2
  accounts : ∀ id a customer, v.accounts.get? id = some a -> a.party = .customer customer ->
    v.accountOf customer a.currency = some (id, a)
  applied : ∀ r ∈ v.applications, Paired v r.2
  collected : ∀ id i, v.invoices.get? id = some i -> i.standing = true ->
    v.invoiceCollected id ≤ i.total
  unpaid : ∀ id i, v.invoices.get? id = some i -> i.standing = false ->
    ∀ r ∈ v.applicationsOn id, v.stands r.2.collection = false
  allocated : ∀ id d, v.documents.get? id = some d -> v.allocated id ≤ d.amount
  openings : ∀ side, (v.standingOpenings side).length ≤ 1
  openingFirst : ∀ side, ∀ o ∈ v.standingOpenings side, ∀ r ∈ v.unreversedOn side,
    o.2.date ≤ r.2.date

/-- The status `sync_invoice_status` keeps: paid exactly when nothing remains. -/
def Synced (v : Books) (id : Id) : Prop :=
  ∀ i, v.invoices.get? id = some i -> i.standing = true ->
    (i.status = .paid ↔ v.invoiceRemaining id i ≤ 0)

structure Inv (v : Books) : Prop extends SoundBooks v where
  synced : ∀ id, Synced v id

/-! ## Reading the invariant -/

namespace SoundBooks

variable {v : Books}

theorem invoiceCollected_nonneg (sound : SoundBooks v) (id : Id) : 0 ≤ v.invoiceCollected id := by
  unfold Books.invoiceCollected
  apply Rows.total_nonneg
  intro r at_r
  have positive := (sound.applied r (List.mem_of_mem_filter at_r)).positive
  split
  · exact Int.le_of_lt positive
  · exact Int.le_refl 0

theorem draft_has_none (sound : SoundBooks v) {id : Id} {draft : InvoiceDraft}
    (found : v.invoices.get? id = some draft) (status : draft.status = .draft) :
    v.applicationsOn id = [] := by
  apply List.filter_eq_nil_iff.mpr
  intro r mem same
  rcases (sound.applied r mem).pair with ⟨_, draft', _, _, _, _, _, _, _, _, found', status', _⟩
  rw [of_decide_eq_true same, found] at found'
  cases found'
  exact status' status

/-- The movements of one known document: the originals, then the mirrors. -/
theorem entry (sound : SoundBooks v) {r : Id × Movement} (mem : r ∈ v.movements) :
    ∃ w cancelled, w.document = r.2.document ∧ Entered v w cancelled := by
  cases sound.known r mem with
  | document same found => exact ⟨_, _, same.symm, sound.documents _ _ found⟩
  | invoice same found =>
      cases sound.invoices _ _ found with
      | unposted _ empty =>
          have member : r ∈ v.movementsOf r.2.document := List.mem_filter.mpr ⟨mem, by simp⟩
          rw [same, empty] at member
          cases member
      | posted _ _ entered => exact ⟨_, _, same.symm, entered⟩

/-- What a movement that reverses another one is. -/
theorem reverses (sound : SoundBooks v) {r : Id × Movement} (mem : r ∈ v.movements) {id : Id}
    (reverses : r.2.reverses = some id) :
    ∃ o ∈ v.movements, o.1 = id ∧ o.2.reverses = none ∧ o.2.document = r.2.document ∧
      r.2 = o.2.mirror id r.2.date r.2.source := by
  rcases sound.entry mem with ⟨w, cancelled, same, entered⟩
  have member : r ∈ v.movementsOf w.document := by
    rw [same]
    exact List.mem_filter.mpr ⟨mem, by simp⟩
  cases entered with
  | standing originals rows =>
      rw [rows] at member
      rw [originals.not_mirror member] at reverses
      cases reverses
  | cancelled originals mirrors rows =>
      rw [rows] at member
      rcases List.mem_append.mp member with member | member
      · rw [originals.not_mirror member] at reverses
        cases reverses
      · rcases mirrors.of_mem member with ⟨o, at_o, mirror⟩
        have listed : o ∈ v.movementsOf w.document := by
          rw [rows]
          exact List.mem_append_left _ at_o
        have key : o.1 = id := by
          rw [mirror] at reverses
          exact Option.some.inj reverses
        refine ⟨o, List.mem_of_mem_filter listed, key, originals.not_mirror at_o, ?_, ?_⟩
        · rw [mirror]
          rfl
        · rw [← key]
          exact mirror

/-- Whether an original is reversed is settled among the movements of its document. -/
theorem isReversed (sound : SoundBooks v) {r : Id × Movement} (mem : r ∈ v.movements) :
    v.isReversed r.1 = true ↔ ∃ m ∈ v.movementsOf r.2.document, m.2.reverses = some r.1 := by
  unfold Books.isReversed
  rw [List.any_eq_true]
  constructor
  · rintro ⟨m, at_m, reverses⟩
    have reverses := of_decide_eq_true reverses
    rcases sound.reverses at_m reverses with ⟨o, at_o, key, _, document, _⟩
    have same : o = r := Rows.unique sound.movementKeys at_o mem key
    refine ⟨m, List.mem_filter.mpr ⟨at_m, ?_⟩, reverses⟩
    rw [← document, same]
    exact decide_eq_true rfl
  · rintro ⟨m, at_m, reverses⟩
    exact ⟨m, List.mem_of_mem_filter at_m, decide_eq_true reverses⟩

end SoundBooks

theorem Entered.unreversed_standing {v : Books} (sound : SoundBooks v) {w : Voucher}
    {originals : Rows Movement} (are : Originals w originals)
    (rows : v.movementsOf w.document = originals) :
    v.unreversedOriginals w.document = originals := by
  unfold Books.unreversedOriginals
  rw [rows, List.filter_eq_self.mpr, are.sorted]
  intro r mem
  have listed : r ∈ v.movementsOf w.document := by
    rw [rows]
    exact mem
  have kept := List.mem_filter.mp listed
  rw [are.not_mirror mem, Option.isNone_none, Bool.true_and, Bool.not_eq_true', Bool.eq_false_iff]
  intro reversed
  rcases (sound.isReversed kept.1).mp reversed with ⟨m, at_m, reverses⟩
  rw [of_decide_eq_true kept.2, rows] at at_m
  rw [are.not_mirror at_m] at reverses
  cases reverses

theorem Entered.unreversed_cancelled {v : Books} {w : Voucher}
    {originals mirrors : Rows Movement} (swapped : Mirrors originals mirrors) (rows : v.movementsOf w.document = originals ++ mirrors) :
    v.unreversedOriginals w.document = [] := by
  unfold Books.unreversedOriginals
  rw [rows, List.filter_eq_nil_iff.mpr]
  · rfl
  intro r mem
  rcases List.mem_append.mp mem with mem | mem
  · have listed : some r.1 ∈ mirrors.map (fun m => m.2.reverses) := by
      rw [swapped.reverses]
      exact List.mem_map_of_mem mem
    rcases List.mem_map.mp listed with ⟨m, at_m, reverses⟩
    have there : m ∈ v.movements := by
      have : m ∈ v.movementsOf w.document := by
        rw [rows]
        exact List.mem_append_right _ at_m
      exact List.mem_of_mem_filter this
    have reversed : v.isReversed r.1 = true :=
      List.any_eq_true.mpr ⟨m, there, decide_eq_true reverses⟩
    simp [reversed]
  · rcases swapped.of_mem mem with ⟨o, _, mirror⟩
    rw [mirror]
    simp [Movement.mirror]

end Ledger
end Shiftlush
