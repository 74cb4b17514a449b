import Shiftlush.Ledger.Reconciliation

namespace Shiftlush
namespace Ledger

open Transactions

/-!
# What the ledger guarantees

The laws that hold of the books any run commits: balances are what the standing
documents mean, applications stay within invoices and collections, reversals
happen once and mirror their originals, and opening balances come first.
-/

/-! ## Reconciliation -/

/-- The balances computed from the movements are what the documents mean. -/
structure Reconciled (v : Books) : Prop where
  accounts : ∀ account, v.accountBalance account = v.expected (.account account)
  cashAccounts : ∀ cashAccount, v.cashBalance cashAccount = v.expected (.cash cashAccount)
  currencies : ∀ r ∈ v.movements, InOwnCurrency v r.2
  cancelledDocuments : ∀ id d, v.documents.get? id = some d -> d.standing = false ->
    ∀ side, v.contribution (d.ref id) side = 0
  cancelledInvoices : ∀ id i, v.invoices.get? id = some i -> i.status = .cancelled ->
    ∀ side, v.contribution (invoiceRef id) side = 0

theorem books_reconciled {v : Books} (reachable : Reachable v) : Reconciled v where
  accounts account := by
    rw [accountBalance_eq]
    exact reachable.inv.toSoundBooks.total_movements _
  cashAccounts cashAccount := by
    rw [cashBalance_eq]
    exact reachable.inv.toSoundBooks.total_movements _
  currencies := reachable.inv.currencies
  cancelledDocuments id d found dropped side := by
    rw [reachable.inv.toSoundBooks.contribution_document found, dropped]
    rfl
  cancelledInvoices id i found status side := by
    rw [reachable.inv.toSoundBooks.contribution_invoice found]
    unfold InvoiceDraft.standing
    rw [status]
    rfl

theorem smallBooks_reconciled : Reconciled smallBooks ∧ smallBooks.accountBalance 1 = 8000 ∧
    smallBooks.cashBalance 2 = 5000 :=
  ⟨books_reconciled smallBooks_reachable, by decide +kernel, by decide +kernel⟩

/-! ## Allocation -/

/-- An invoice's total is never negative once it is not when drafted. -/
theorem LedgerStep.totals {s s' : Books} {written : Rows Movement} (inv : Inv s)
    (step : LedgerStep s s' written)
    (before : ∀ id i, s.invoices.get? id = some i -> 0 ≤ i.total) :
    ∀ id i, s'.invoices.get? id = some i -> 0 ≤ i.total := by
  -- Syncing an invoice leaves its total alone.
  have synced : ∀ {ids v w}, Syncs ids v w -> (∀ id i, v.invoices.get? id = some i -> 0 ≤ i.total) ->
      ∀ id i, w.invoices.get? id = some i -> 0 ≤ i.total := by
    intro ids v w syncs nonneg id i found
    rcases syncs.before found with ⟨j, at_j, alike, _⟩
    rw [alike.total]
    exact nonneg id j at_j
  -- A change of one invoice, if its new total is not negative.
  have changed : ∀ {u id f draft new rows}, Changeable u id draft new rows -> f draft = new ->
      (∀ k i, u.invoices.get? k = some i -> 0 ≤ i.total) -> 0 ≤ new.total ->
      ∀ k i, (u.change id f rows).invoices.get? k = some i -> 0 ≤ i.total := by
    intro u id f draft new rows changeable makes nonneg total k i found
    by_cases here : k = id
    · rw [here, changeable.becomes makes] at found
      cases found
      exact total
    · exact nonneg k i ((Rows.get?_update_of_ne here).symm.trans found)
  cases step with
  | grown grows _ =>
      rw [grows.invoices]
      exact before
  | recorded grows _ _ _ syncs =>
      apply synced syncs
      intro id i found
      apply before id i
      rw [← grows.invoices]
      exact found
  | applied _ _ syncs _ => exact synced syncs before
  | reversed _ _ syncs => exact synced syncs before
  | @issued u id draft new f grows changeable makes standing syncs =>
      apply synced syncs
      apply changed changeable makes
      · rw [grows.invoices]
        exact before
      · have sound := inv.toSoundBooks.grows grows
        exact Int.le_trans (sound.invoiceCollected_nonneg id) (changeable.collected standing)
  | cancelled changeable makes _ total same =>
      rw [same]
      apply changed changeable makes before
      rw [total]
      exact before _ _ changeable.found

theorem Reachable.totals {v : Books} (reachable : Reachable v) {id : Id} {i : InvoiceDraft}
    (found : v.invoices.get? id = some i) : 0 ≤ i.total := by
  rcases reachable with ⟨s, nextId, events, unposted, rfl⟩
  refine unposted.consistent.invariant disciplined
    (J := fun v => ∀ id i, v.invoices.get? id = some i -> 0 ≤ i.total) ?_ ?_ events id i found
  · exact fun id i found => (unposted.drafts _ (Rows.mem_of_get? found)).2.2
  · rintro _ _ _ _ inv before ⟨⟨_, step, _⟩, _⟩
    exact step.totals inv before

/-- How applications relate collections and invoices. -/
structure AllocationLaw (v : Books) : Prop where
  invoice : ∀ id i, v.invoices.get? id = some i -> v.invoiceCollected id ≤ i.total
  collection : ∀ id d, v.documents.get? id = some d -> v.stands id = true ->
    v.allocated id ≤ d.amount
  /-- The collection's account is the invoice's customer's, in its currency. -/
  paired : ∀ r ∈ v.applications, ∃ collection draft account row cashAccount number method,
    v.documents.get? r.2.collection = some collection ∧
    collection.body = .collection account cashAccount number method ∧
    v.invoices.get? r.2.invoice = some draft ∧ v.accounts.get? account = some row ∧
    v.accountOf draft.customer draft.currency = some (account, row) ∧
    row.currency = draft.currency
  paid : ∀ id i, v.invoices.get? id = some i -> i.standing = true ->
    (i.status = .paid ↔ v.invoiceRemaining id i = 0) ∧
    (i.status = .issued ↔ v.invoiceRemaining id i ≠ 0)
  cancelled : ∀ id i, v.invoices.get? id = some i -> i.status = .cancelled ->
    ∀ r ∈ v.applicationsOn id, v.stands r.2.collection = false

theorem SoundBooks.collected_dropped {v : Books} (sound : SoundBooks v) {id : Id} {i : InvoiceDraft}
    (found : v.invoices.get? id = some i) (dropped : i.standing = false) :
    v.invoiceCollected id = 0 := by
  unfold Books.invoiceCollected
  apply Rows.total_zero
  intro r mem
  rw [sound.unpaid id i found dropped r mem]
  rfl

theorem InvoiceDraft.standing_status {i : InvoiceDraft} (standing : i.standing = true) :
    i.status = .issued ∨ i.status = .paid := by
  unfold InvoiceDraft.standing at standing
  cases status : i.status with
  | issued => exact Or.inl rfl
  | paid => exact Or.inr rfl
  | draft =>
      rw [status] at standing
      cases standing
  | cancelled =>
      rw [status] at standing
      cases standing

theorem allocation_law {v : Books} (reachable : Reachable v) : AllocationLaw v where
  invoice id i found := by
    have sound := reachable.inv.toSoundBooks
    cases standing : i.standing with
    | true => exact sound.collected id i found standing
    | false =>
        rw [sound.collected_dropped found standing]
        exact reachable.totals found
  collection id d found _ := reachable.inv.allocated id d found
  paired r mem := by
    rcases (reachable.inv.applied r mem).pair with ⟨collection, draft, account, row, cashAccount,
      number, method, at_collection, body, at_account, at_invoice, _, party, currency⟩
    have live := reachable.inv.accounts account row draft.customer at_account party
    rw [currency] at live
    exact ⟨collection, draft, account, row, cashAccount, number, method, at_collection, body,
      at_invoice, at_account, live, currency⟩
  paid id i found standing := by
    have synced := reachable.inv.synced id i found standing
    have covered : 0 ≤ v.invoiceRemaining id i :=
      Int.sub_nonneg_of_le (reachable.inv.collected id i found standing)
    have exact_zero : v.invoiceRemaining id i ≤ 0 ↔ v.invoiceRemaining id i = 0 :=
      ⟨fun le => Int.le_antisymm le covered, fun zero => Int.le_of_eq zero⟩
    rw [exact_zero] at synced
    refine ⟨synced, ?_⟩
    rw [Ne, ← synced]
    rcases InvoiceDraft.standing_status standing with status | status
    · rw [status]
      exact iff_of_true rfl (fun same => nomatch same)
    · rw [status]
      exact iff_of_false (fun same => nomatch same) (fun other => other rfl)
  cancelled id i found status := by
    apply reachable.inv.unpaid id i found
    unfold InvoiceDraft.standing
    rw [status]
    rfl

theorem smallBooks_allocation : AllocationLaw smallBooks ∧ smallBooks.invoiceCollected 20 = 5000 :=
  ⟨allocation_law smallBooks_reachable, by decide +kernel⟩

/-! ## Reversals -/

/-- How reversals relate to the movements of documents and invoices. -/
structure ReversalLaw (v : Books) : Prop where
  once : ∀ id, (v.movements.filter (fun r => r.2.reverses = some id)).length ≤ 1
  /-- A reversal mirrors an original: the same but for its date and source, each
  side in the other direction.  What it reverses is no reversal. -/
  mirrors : ∀ r ∈ v.movements, ∀ id, r.2.reverses = some id -> ∃ o ∈ v.movements, o.1 = id ∧
    o.2.reverses = none ∧ r.2.document = o.2.document ∧
    r.2.account = o.2.account.map (fun side => (side.1, side.2.mirror)) ∧
    r.2.cashAccount = o.2.cashAccount.map (fun side => (side.1, side.2.mirror)) ∧
    r.2.amount = o.2.amount ∧ r.2.currency = o.2.currency
  document : ∀ id d, v.documents.get? id = some d -> v.movementsOf (d.ref id) ≠ [] ->
    (d.cancelledAt.isSome = true ↔
      ∀ r ∈ v.movementsOf (d.ref id), r.2.reverses = none -> v.isReversed r.1 = true)
  invoice : ∀ id i, v.invoices.get? id = some i -> v.movementsOf (invoiceRef id) ≠ [] ->
    (i.status = .cancelled ↔
      ∀ r ∈ v.movementsOf (invoiceRef id), r.2.reverses = none -> v.isReversed r.1 = true)
  /-- A document that stands has no mirror. -/
  unmarked : ∀ id d, v.documents.get? id = some d -> d.cancelledAt = none ->
    ∀ r ∈ v.movementsOf (d.ref id), r.2.reverses = none

/-- The reversals of one movement are among the mirrors of its document. -/
theorem SoundBooks.reversed_once {v : Books} (sound : SoundBooks v) (id : Id) :
    (v.movements.filter (fun r => r.2.reverses = some id)).length ≤ 1 := by
  by_contra more
  have two : 1 < (v.movements.filter (fun r => r.2.reverses = some id)).length := Nat.not_le.mp more
  cases listed : v.movements.filter (fun r => r.2.reverses = some id) with
  | nil =>
      rw [listed] at two
      cases two
  | cons first rest =>
      have mem : first ∈ v.movements.filter (fun r => r.2.reverses = some id) := by
        rw [listed]
        exact List.mem_cons_self
      rcases List.mem_filter.mp mem with ⟨at_first, reverses⟩
      have reverses : first.2.reverses = some id := of_decide_eq_true reverses
      rcases sound.reverses at_first reverses with ⟨o, at_o, key, _, document, _⟩
      rcases sound.entry at_first with ⟨w, cancelled, same, entered⟩
      -- Every reversal of `id` names the same document.
      have within : v.movements.filter (fun r => r.2.reverses = some id) =
          (v.movementsOf w.document).filter (fun r => r.2.reverses = some id) := by
        unfold Books.movementsOf
        rw [List.filter_filter]
        apply List.filter_congr
        intro r at_r
        by_cases reverses' : r.2.reverses = some id
        · rcases sound.reverses at_r reverses' with ⟨o', at_o', key', _, document', _⟩
          have here : o' = o := Rows.unique sound.movementKeys at_o' at_o (key'.trans key.symm)
          have named : r.2.document = w.document := by
            rw [← document', here, document, same]
          simp [reverses', named]
        · simp [reverses']
      rw [within] at two
      cases entered with
      | standing originals rows =>
          rw [rows, List.filter_eq_nil_iff.mpr] at two
          · cases two
          · intro r at_r
            rw [originals.not_mirror at_r]
            simp
      | cancelled originals mirrors rows =>
          rename_i olds news
          have none : olds.filter (fun r => r.2.reverses = some id) = [] := by
            apply List.filter_eq_nil_iff.mpr
            intro r at_r
            rw [originals.not_mirror at_r]
            simp
          rw [rows, List.filter_append, none, List.nil_append] at two
          have nodup : (news.map (fun r => r.2.reverses)).Nodup := by
            rw [mirrors.reverses]
            have keys : (olds.map (·.1)).Nodup := originals.keys.imp Nat.ne_of_lt
            have mapped : olds.map (fun r => some r.1) = (olds.map (·.1)).map some := by
              rw [List.map_map]
              rfl
            rw [mapped]
            exact keys.map (Option.some_injective _)
          have counted : (news.map (fun r => r.2.reverses)).count (some id) =
              (news.filter (fun r => r.2.reverses = some id)).length := by
            rw [List.count, List.countP_map, List.countP_eq_length_filter]
            congr 1
            apply List.filter_congr
            intro r _
            rw [Bool.eq_iff_iff]
            simp
          have le := List.nodup_iff_count_le_one.mp nodup (some id)
          omega

/-- Whether a document's originals are all reversed is whether it is cancelled. -/
theorem Entered.reversed_iff {v : Books} (sound : SoundBooks v) {w : Voucher} {cancelled : Bool}
    (entered : Entered v w cancelled) (posted : v.movementsOf w.document ≠ []) :
    cancelled = true ↔
      ∀ r ∈ v.movementsOf w.document, r.2.reverses = none -> v.isReversed r.1 = true := by
  cases entered with
  | @standing originals are rows =>
      apply iff_of_false (fun same => nomatch same)
      intro all
      rcases List.exists_mem_of_ne_nil _ posted with ⟨r, mem⟩
      have at_r := mem
      rw [rows] at at_r
      have reversed := all r mem (are.not_mirror at_r)
      have kept := List.mem_filter.mp mem
      rcases (sound.isReversed kept.1).mp reversed with ⟨m, at_m, reverses⟩
      rw [of_decide_eq_true kept.2, rows] at at_m
      rw [are.not_mirror at_m] at reverses
      cases reverses
  | @cancelled originals news are mirrors rows =>
      apply iff_of_true rfl
      intro r mem original
      rw [rows] at mem
      rcases List.mem_append.mp mem with old | new
      · have listed : some r.1 ∈ news.map (fun m => m.2.reverses) := by
          rw [mirrors.reverses]
          exact List.mem_map_of_mem old
        rcases List.mem_map.mp listed with ⟨m, at_m, reverses⟩
        have there : m ∈ v.movementsOf w.document := by
          rw [rows]
          exact List.mem_append_right _ at_m
        exact List.any_eq_true.mpr ⟨m, List.mem_of_mem_filter there, decide_eq_true reverses⟩
      · rcases mirrors.of_mem new with ⟨o, _, mirror⟩
        rw [mirror] at original
        cases original

theorem reversal_law {v : Books} (reachable : Reachable v) : ReversalLaw v where
  once := reachable.inv.toSoundBooks.reversed_once
  mirrors r mem id reverses := by
    rcases reachable.inv.toSoundBooks.reverses mem reverses with ⟨o, at_o, key, original, document,
      mirror⟩
    refine ⟨o, at_o, key, original, document.symm, ?_, ?_, ?_, ?_⟩
    all_goals
      rw [mirror]
      rfl
  document id d found posted := by
    have sound := reachable.inv.toSoundBooks
    refine Iff.trans ?_ ((sound.documents id d found).reversed_iff sound posted)
    unfold Document.standing
    cases d.cancelledAt <;> simp
  invoice id i found posted := by
    have sound := reachable.inv.toSoundBooks
    cases sound.invoices id i found with
    | unposted _ empty => exact absurd empty posted
    | posted status live entered =>
        refine Iff.trans ?_ (entered.reversed_iff sound posted)
        have marked := sound.marked id i found
        unfold InvoiceDraft.standing
        cases current : i.status with
        | draft => exact absurd current status
        | _ =>
            rw [current] at marked
            simp only [reduceCtorEq, decide_false, decide_true, Option.isSome_eq_false_iff] at marked
            simp [InvoiceStatus.payable, marked]
  unmarked id d found standing := by
    have sound := reachable.inv.toSoundBooks
    have entered := sound.documents id d found
    have stands : d.standing = true := by
      unfold Document.standing
      rw [standing]
      rfl
    rw [stands] at entered
    cases entered with
    | standing originals rows =>
        intro r mem
        rw [show v.movementsOf (d.ref id) = _ from rows] at mem
        exact originals.not_mirror mem

theorem smallBooks_reversals : ReversalLaw smallBooks ∧ smallBooks.isReversed 107 = true :=
  ⟨reversal_law smallBooks_reachable, by decide +kernel⟩

/-! ## Openings -/

/-- At most one opening stands on a side, before everything unreversed there. -/
theorem openings_first {v : Books} (reachable : Reachable v) (side : Side) :
    (v.standingOpenings side).length ≤ 1 ∧
      ∀ o ∈ v.standingOpenings side, ∀ r ∈ v.unreversedOn side, o.2.date ≤ r.2.date :=
  ⟨reachable.inv.openings side, reachable.inv.openingFirst side⟩

theorem smallBooks_openings : ((smallBooks.standingOpenings (.account 1)).length ≤ 1 ∧
    ∀ o ∈ smallBooks.standingOpenings (.account 1), ∀ r ∈ smallBooks.unreversedOn (.account 1),
      o.2.date ≤ r.2.date) ∧ (smallBooks.unreversedOn (.account 1)).length = 3 :=
  ⟨openings_first smallBooks_reachable (.account 1), by decide +kernel⟩

end Ledger
end Shiftlush
