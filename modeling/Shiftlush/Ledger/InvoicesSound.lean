import Shiftlush.Ledger.CancelSound

namespace Shiftlush
namespace Ledger

open Transactions

/-!
# Issuing, paying and cancelling an invoice follow the convention

The rules of `post_invoice`, `reverse_invoice` and `collect_invoice`, and of
the three functions of billing that call them under the invoice's lock.
-/

variable {s : Books} {t : Trail Books Row Note}

/-- Locking a row the session holds already. -/
theorem order_again {row : Row} (fit : Fit s t) (locked : t.Locked row) :
    Order s t.held t.retries .update row :=
  ⟨fit.no_company, .again locked (Or.inl rfl)⟩

/-! ## post_invoice -/

/-- What `post_invoice` leaves behind: `v` is what it found, with the customer's
account, and `rows` the debit. -/
structure Invoiced (s : Books) (t t' : Trail Books Row Note) (id : Id) (draft : InvoiceDraft)
    (v : Books) (account : Id) (rows : Rows Movement) : Prop where
  later : Later t t'
  fit : Fit s t'
  grows : Grows (t.writes s) v
  view : t'.writes s = v.addMovements rows
  total : 0 ≤ draft.total
  live : draft.total ≠ 0 ->
    ∃ row, v.accountOf draft.customer draft.currency = some (account, row)
  originals : Originals (draft.voucher id account) rows
  fresh : ∀ r ∈ rows, v.movements.get? r.1 = none
  currencies : ∀ r ∈ rows, InOwnCurrency v r.2
  after : ∀ r ∈ rows, ∀ side, r.2.on side = true -> ∀ o ∈ v.standingOpenings side,
    o.2.date ≤ r.2.date
  noted : ∀ r ∈ rows, Note.dateOpen r.2.company r.2.date ∈ t'.seen
  locked : ∀ r ∈ rows, ∀ row ∈ r.2.references, row.isCompany = false -> t'.Locked row

/-- A zero total posts nothing. -/
theorem Invoiced.nothing {id account : Id} {draft : InvoiceDraft} (fit : Fit s t)
    (zero : draft.total = 0) : Invoiced s t t id draft (t.writes s) account [] where
  later := .refl t
  fit := fit
  grows := .refl _
  view := by
    unfold Books.addMovements
    rw [List.append_nil]
  total := Int.le_of_eq zero.symm
  live nonzero := absurd zero nonzero
  originals := by
    refine ⟨⟨0, "", ?_⟩, List.Pairwise.nil⟩
    unfold InvoiceDraft.voucher
    rw [if_pos zero]
    rfl
  fresh _ mem := absurd mem List.not_mem_nil
  currencies _ mem := absurd mem List.not_mem_nil
  after _ mem := absurd mem List.not_mem_nil
  noted _ mem := absurd mem List.not_mem_nil
  locked _ mem := absurd mem List.not_mem_nil

theorem sound_postInvoice {id : Id} (draft : InvoiceDraft)
    {post : Books -> Rows Movement -> Trail Books Row Note -> Prop} (fit : Fit s t)
    (below : Below t 3) (locked : t.Locked (.invoice id))
    (found : (t.writes s).invoices.get? id = some draft)
    (unposted : (t.writes s).movementsOf (invoiceRef id) = []) (grown : (t.writes s).movements = s.movements)
    (after : ∀ v account rows t', Invoiced s (t.hold .update (.invoice id)) t' id draft v account rows ->
      post s rows t') :
    Sound convention (postInvoice id) s t post := by
  unfold postInvoice
  simp only [Prog.bind_eq, Prog.pure_eq, sound_bind]
  apply sound_lockInvoice (order_again fit locked)
  intro draft' found'
  cases Option.some.inj (found.symm.trans found')
  simp only [sound_require]
  intro standing
  have fit₁ : Fit s (t.hold .update (.invoice id)) := fit.hold _ rfl
  have below₁ : Below (t.hold .update (.invoice id)) 3 := below.hold (Nat.succ_pos 2)
  cases dated : draft.invoiceDate with
  | none => trivial
  | some date =>
      simp only [sound_bind, sound_observe]
      refine ⟨?_, ?_⟩
      · intro v rely
        have same : SameInvoice id (t.writes s) v := rely.rows _ List.mem_cons_self
        exact same.posted
      · have none : ((t.hold .update (.invoice id)).writes s).invoicePosted id = false := by
          rw [Trail.hold_writes]
          unfold Books.invoicePosted
          rw [show (t.writes s).movementsOf ⟨.invoiceDraft, id⟩ = [] from unposted]
          rfl
        split
        · rename_i nothing
          have zero : draft.total = 0 := by
            rw [none] at nothing
            simpa using nothing
          exact after _ 0 _ _ (.nothing fit₁ zero)
        · rename_i something
          have zero : draft.total ≠ 0 := fun zero => something (Or.inr zero)
          simp only [sound_bind]
          apply sound_accountForCustomer fit₁ below₁
          intro account t₁ made customer
          have lockedHere : t₁.Locked (.invoice id) := made.later.locked List.mem_cons_self
          have owned : Owned t₁ s (t₁.writes s) ⟨.invoiceDraft, id⟩ := .invoice rfl lockedHere
          have below₂ : Below t₁ 4 := (below₁.mono (by decide)).locking made.bound (by decide)
          apply sound_post made.fit
            ((below₂.mono (Nat.le_add_right 4 2)).fits (fun _ => rfl) _)
            (.locked (fun _ mem => absurd mem List.not_mem_nil)) owned
          · rintro _ ⟨⟩
            exact customer.found
          · exact fun _ same => nomatch same
          · intro firm mid t₂ _ _ money posted
            simp only [sound_done]
            have positive := money_pos money
            rw [Decimal.cents?_ofCents] at positive
            apply after (t₁.writes s) account.1
            exact
              { later := made.later.trans posted.later, fit := posted.fit, grows := made.grows
                view := posted.view, total := Int.le_of_lt positive
                live := fun _ => ⟨account.2, customer.live⟩
                originals := by
                  refine ⟨⟨firm, draft.currency, ?_⟩, List.pairwise_singleton _ _⟩
                  unfold InvoiceDraft.voucher
                  rw [if_neg zero, dated]
                  unfold postedMovement
                  rw [Decimal.cents?_ofCents]
                  rfl
                fresh := by
                  intro r mem
                  rw [List.mem_singleton.mp mem, made.grows.movements, Trail.hold_writes, grown]
                  exact posted.unused.movement
                currencies := by
                  intro r mem
                  rw [List.mem_singleton.mp mem]
                  exact posted.currency
                after := by
                  intro r mem side on o at_o
                  rw [List.mem_singleton.mp mem] at on ⊢
                  exact posted.opening (fun same => nomatch same) side (on_sided on) o at_o
                noted := by
                  intro r mem
                  rw [List.mem_singleton.mp mem]
                  exact posted.noted
                locked := by
                  intro r mem row listed side
                  rw [List.mem_singleton.mp mem] at listed
                  rcases Movement.references_side _ listed side with ⟨side', here, same⟩
                  rw [same]
                  exact posted.locked side' (on_sided here) }

/-! ## issue -/

/-- What `issue` makes of a draft stands. -/
theorem InvoiceDraft.issued_standing {draft : InvoiceDraft} (number : String) (date : Date)
    (live : draft.cancelledAt = none) : (draft.issued number date).standing = true := by
  unfold InvoiceDraft.standing InvoiceDraft.issued InvoiceDraft.recompute
  split
  · simp [live, InvoiceStatus.payable]
  · simp [live, InvoiceStatus.payable]

theorem InvoiceDraft.issued_parties (draft : InvoiceDraft) (number : String) (date : Date) :
    (draft.issued number date).customer = draft.customer ∧
      (draft.issued number date).currency = draft.currency := by
  unfold InvoiceDraft.issued InvoiceDraft.recompute
  split
  · exact ⟨rfl, rfl⟩
  · exact ⟨rfl, rfl⟩

/-- The rows behind a change of one invoice: the same, before the change. -/
theorem Grows.behind {v w : Books} {id : Id} {f : InvoiceDraft -> InvoiceDraft}
    (grows : Grows (v.updateInvoice id f) w) :
    Grows v { w with invoices := v.invoices } ∧
      w = { w with invoices := v.invoices }.updateInvoice id f := by
  refine ⟨?_, ?_⟩
  · exact
      { movements := grows.movements, documents := grows.documents, invoices := rfl
        applications := grows.applications, accounts := grows.accounts
        cashAccounts := grows.cashAccounts, live := grows.live, single := grows.single
        accountKeys := grows.accountKeys, cashAccountKeys := grows.cashAccountKeys }
  · have invoices : w.invoices = v.invoices.update id f := grows.invoices
    unfold Books.updateInvoice
    rw [← invoices]

theorem sound_issue {id : Id} {number : String} {date : Date}
    {post : Books -> Rows Movement -> Trail Books Row Note -> Prop} (fit : Fit s t)
    (sound : SoundBooks s) (untouched : t.writes s = s) (start : Below t 0)
    (after : ∀ written t', Served s t' written -> post s written t') :
    Sound convention (issue id number date) s t post := by
  unfold issue
  simp only [Prog.bind_eq, Prog.pure_eq, sound_bind]
  apply sound_lockInvoice (Below.order start fit rfl)
  intro draft found
  rw [untouched] at found
  simp only [sound_require, sound_peek, sound_write]
  intro status _ taken _
  have status : draft.status = .draft := of_decide_eq_true status
  have locked : (t.hold .update (.invoice id)).Locked (.invoice id) := List.mem_cons_self
  have fit₁ : Fit s (t.hold .update (.invoice id)) := fit.hold _ rfl
  have view : (t.hold .update (.invoice id)).writes s = s := untouched
  have confined : convention.Confined (t.hold .update (.invoice id)) s (t.writes s) ->
      convention.Confined (t.hold .update (.invoice id)) s
        ((t.writes s).updateInvoice id (fun _ => draft.issued number date)) :=
    confined_updateInvoice locked
  refine ⟨respects_updateInvoice, confined, ?_⟩
  have fit₂ : Fit s ((t.hold .update (.invoice id)).write
      (Books.updateInvoice id (fun _ => draft.issued number date))) :=
    fit₁.write (confined fit₁.confined) rfl fit₁.keys fit₁.sides
  have below : Below (t.hold .update (.invoice id)) 3 :=
    (start.mono (Nat.zero_le 3)).hold (Nat.succ_pos 2)
  have found₂ : (s.updateInvoice id (fun _ => draft.issued number date)).invoices.get? id =
      some (draft.issued number date) := by
    have updated := Rows.get?_update_self s.invoices id (fun _ => draft.issued number date)
    rw [found] at updated
    exact updated
  apply sound_postInvoice (draft.issued number date) fit₂ below locked
  · rw [Trail.write_writes, view]
    exact found₂
  · rw [Trail.write_writes, view]
    exact sound.unissued found status
  · rw [Trail.write_writes, view]
    rfl
  intro v account rows t₁ invoiced
  apply sound_syncInvoiceStatus invoiced.fit
  · exact invoiced.later.locked List.mem_cons_self
  intro t₂ settling
  simp only [sound_done]
  apply after
  have grows : Grows (s.updateInvoice id (fun _ => draft.issued number date)) v := by
    have grows := invoiced.grows
    rw [Trail.hold_writes, Trail.write_writes, view] at grows
    exact grows
  rcases grows.behind with ⟨grown, changed⟩
  have live : draft.cancelledAt = none := by
    have marked := sound.marked id draft found
    rw [status] at marked
    exact Option.isSome_eq_false_iff.mp marked |> Option.isNone_iff_eq_none.mp
  rcases draft.issued_parties number date with ⟨customer, currency⟩
  refine
    { step := ?_, fit := settling.fit
      noted := fun r mem => settling.later.seen _ (invoiced.noted r mem)
      keys := .locked (fun r mem row listed side =>
        settling.later.locked (invoiced.locked r mem row listed side)) }
  have changeable : Changeable { v with invoices := s.invoices } id draft
      (draft.issued number date) rows :=
    (sound.grows grown).issuable found status customer currency
      (draft.issued_standing number date live) invoiced.total invoiced.originals invoiced.live
      invoiced.fresh (fun r mem => (invoiced.currencies r mem).mono (fun _ _ found => found)
        (fun _ _ found => found)) invoiced.after
  apply LedgerStep.issued (f := fun _ => draft.issued number date) grown changeable rfl
    (draft.issued_standing number date live)
  have syncs := settling.syncs
  rw [invoiced.view, changed] at syncs
  exact syncs

/-! ## reverse_invoice and cancel -/

/-- What `reverse_invoice` leaves behind: the mirrors of the invoice's
movements, if it has any. -/
structure Withdrawn (s : Books) (t t' : Trail Books Row Note) (id : Id) (rows : Rows Movement) :
    Prop where
  later : Later t t'
  fit : Fit s t'
  view : t'.writes s = s.addMovements rows
  mirrors : Mirrors (s.movementsOf (invoiceRef id)) rows
  distinct : Rows.Distinct rows
  fresh : ∀ r ∈ rows, s.movements.get? r.1 = none
  noted : ∀ r ∈ rows, Note.dateOpen r.2.company r.2.date ∈ t'.seen
  keys : KeysFit s t' rows

theorem Withdrawn.nothing {id : Id} (fit : Fit s t) (untouched : t.writes s = s)
    (empty : s.movementsOf (invoiceRef id) = []) : Withdrawn s t t id [] where
  later := .refl t
  fit := fit
  view := by
    rw [untouched]
    unfold Books.addMovements
    rw [List.append_nil]
  mirrors := by
    rw [empty]
    exact ⟨0, .reversal, rfl⟩
  distinct := List.nodup_nil
  fresh _ mem := absurd mem List.not_mem_nil
  noted _ mem := absurd mem List.not_mem_nil
  keys := .locked (fun _ mem => absurd mem List.not_mem_nil)

/-- The movements of an invoice are all of its own source. -/
theorem Originals.invoicePosted {v : Books} {id account : Id} {draft : InvoiceDraft}
    {originals : Rows Movement} (are : Originals (draft.voucher id account) originals)
    (rows : v.movementsOf (invoiceRef id) = originals) (unposted : v.invoicePosted id = false) :
    v.movementsOf (invoiceRef id) = [] := by
  apply List.eq_nil_iff_forall_not_mem.mpr
  intro r mem
  have other := List.any_eq_false.mp unposted r mem
  rw [rows] at mem
  rcases are.of_mem mem with ⟨_, _, _, _, same⟩
  rw [same] at other
  exact other (decide_eq_true rfl)

theorem sound_reverseInvoice {id : Id} {draft : InvoiceDraft}
    {post : Books -> Rows Movement -> Trail Books Row Note -> Prop} (fit : Fit s t)
    (sound : SoundBooks s) (untouched : t.writes s = s) (below : Below t 5)
    (locked : t.Locked (.invoice id)) (found : s.invoices.get? id = some draft)
    (standing : draft.standing = true)
    (after : ∀ rows t', s.invoiceCollected id ≤ 0 ->
      Withdrawn s (t.hold .update (.invoice id)) t' id rows -> post s rows t') :
    Sound convention (reverseInvoice id) s t post := by
  rcases sound.issued found standing with ⟨account, originals, are, rows_eq, _⟩
  have entered : Entered s (draft.voucher id account) false := .standing are rows_eq
  unfold reverseInvoice
  simp only [Prog.bind_eq, Prog.pure_eq, sound_bind]
  apply sound_lockInvoice (order_again fit locked)
  intro draft' _
  have fit₁ : Fit s (t.hold .update (.invoice id)) := fit.hold _ rfl
  have below₁ : Below (t.hold .update (.invoice id)) 5 := below.hold (Nat.succ_pos 4)
  have same : ∀ v, convention.Rely (t.hold .update (.invoice id)) s v -> SameInvoice id s v :=
    fun v rely => rely.rows _ List.mem_cons_self
  have view : (t.hold .update (.invoice id)).writes s = s := untouched
  simp only [sound_ensure, sound_observe, view]
  intro collected
  refine ⟨?_, ?_, ?_⟩
  · intro v rely
    rw [(same v rely).collected]
    exact collected
  · exact fun v rely => (same v rely).posted
  · have unpaid : s.invoiceCollected id ≤ 0 := of_decide_eq_true collected
    cases posted : s.invoicePosted id with
    | false => exact after [] _ unpaid (.nothing fit₁ view (are.invoicePosted rows_eq posted))
    | true =>
        simp only [if_true, sound_bind, sound_peek]
        intro today
        apply sound_reverseDocument (w := draft.voucher id account) fit₁ sound view entered
          (.invoice rfl List.mem_cons_self) (fun v rely => (same v rely).entries) below₁
        intro rows t₁ reversed _
        apply after rows t₁ unpaid
        refine
          { later := reversed.later, fit := reversed.fit, view := reversed.view
            mirrors := reversed.mirrors, distinct := reversed.keys, fresh := reversed.fresh
            noted := reversed.noted, keys := ?_ }
        apply KeysFit.sorted
        · exact (below₁.mono (by decide)).locking reversed.bound (by decide)
        · rcases are.references with ⟨firm, refers⟩
          have listed : s.movementsOf (draft.voucher id account).document = originals := rows_eq
          rw [reversed.mirrors.references, listed, refers]
          exact draft.references_inOrder id account firm

theorem sound_cancelInvoice {id : Id} {reason : String}
    {post : Books -> Rows Movement -> Trail Books Row Note -> Prop} (fit : Fit s t)
    (sound : SoundBooks s) (untouched : t.writes s = s) (start : Below t 0)
    (after : ∀ written t', Served s t' written -> post s written t') :
    Sound convention (cancelInvoice id reason) s t post := by
  unfold cancelInvoice
  simp only [Prog.bind_eq, Prog.pure_eq, sound_bind]
  apply sound_lockInvoice (Below.order start fit rfl)
  intro draft found
  rw [untouched] at found
  simp only [sound_require]
  intro live
  have live : draft.status = .draft ∨ draft.status.payable = true := by
    simpa only [Bool.or_eq_true, decide_eq_true_eq] using live
  have fit₁ : Fit s (t.hold .update (.invoice id)) := fit.hold _ rfl
  have below : Below (t.hold .update (.invoice id)) 5 :=
    (start.mono (Nat.zero_le 5)).hold (Nat.succ_pos 4)
  have view : (t.hold .update (.invoice id)).writes s = s := untouched
  -- The end is the same with and without movements to mirror.
  have finish : ∀ rows t₁, t₁.Locked (.invoice id) -> Withdrawn s t₁ t₁ id rows ->
      (draft.standing = true -> s.invoiceCollected id ≤ 0) ->
      Sound convention ((peek (·.today)).bind (fun today =>
        (write (Books.updateInvoice id (·.cancelled today reason))).bind
          (fun _ => .done rows)) : LedgerProg (Rows Movement)) s t₁ post := by
    intro rows t₁ locked withdrawn collected
    simp only [sound_bind, sound_peek, sound_write, sound_done]
    intro today
    have confined : convention.Confined t₁ s (t₁.writes s) -> convention.Confined t₁ s
        ((t₁.writes s).updateInvoice id (·.cancelled today reason)) :=
      confined_updateInvoice locked
    refine ⟨respects_updateInvoice, confined, ?_⟩
    apply after
    have changeable := sound.cancellable found live withdrawn.mirrors withdrawn.distinct
      withdrawn.fresh collected today reason
    refine ⟨?_, withdrawn.fit.write (confined withdrawn.fit.confined) rfl withdrawn.fit.keys
      withdrawn.fit.sides, withdrawn.noted, withdrawn.keys.same rfl rfl⟩
    apply LedgerStep.cancelled (f := (·.cancelled today reason)) changeable rfl
      (cancelled_standing draft today reason) rfl
    rw [Trail.write_writes, withdrawn.view]
    rfl
  by_cases status : draft.status = .draft
  · rw [if_pos status]
    apply finish [] _ List.mem_cons_self (.nothing fit₁ view (sound.unissued found status))
    intro standing
    exact absurd status (standing_status standing)
  · rw [if_neg status]
    have standing : draft.standing = true := by
      have payable := live.resolve_left status
      have marked := sound.marked id draft found
      have open_status : draft.status ≠ .cancelled := by
        intro cancelled
        rw [cancelled] at payable
        cases payable
      rw [decide_eq_false open_status, Option.isSome_eq_false_iff] at marked
      unfold InvoiceDraft.standing
      rw [payable, marked]
      rfl
    apply sound_bind.mpr
    apply sound_reverseInvoice fit₁ sound view below List.mem_cons_self found standing
    intro rows t₁ unpaid withdrawn
    apply finish rows t₁ (withdrawn.later.locked List.mem_cons_self) _ (fun _ => unpaid)
    exact
      { later := .refl t₁, fit := withdrawn.fit, view := withdrawn.view, mirrors := withdrawn.mirrors
        distinct := withdrawn.distinct, fresh := withdrawn.fresh, noted := withdrawn.noted
        keys := withdrawn.keys }

/-! ## mark_paid -/

theorem sound_collectInvoice {id : Id} {draft : InvoiceDraft} {date : Date}
    {cashAccount : Option (Id × CashAccount)} {method : Option PaymentMethod}
    {post : Books -> Rows Movement -> Trail Books Row Note -> Prop} (fit : Fit s t)
    (grows : Grows s (t.writes s)) (below : Below t 2) (locked : t.Locked (.invoice id))
    (named : ∀ till, cashAccount = some till ->
      (t.writes s).cashAccounts.get? till.1 = some till.2)
    (after : ∀ written t', Served s t' written -> post s written t') :
    Sound convention (collectInvoice id draft date cashAccount method) s t post := by
  unfold collectInvoice
  simp only [Prog.bind_eq, sound_bind]
  apply sound_tillFor fit below named
  intro till t₁ made at_till
  have locked₁ : t₁.Locked (.invoice id) := made.later.locked locked
  simp only [sound_observe]
  refine ⟨?_, ?_⟩
  · intro v rely
    have same : SameInvoice id (t₁.writes s) v := rely.rows _ locked₁
    exact same.remaining draft
  · have below₁ : Below t₁ 3 := below.of_bound made.bound (by decide)
    apply sound_accountForCustomer made.fit below₁
    intro account t₂ made' customer
    apply sound_recordCollection made'.fit ((grows.trans made.grows).trans made'.grows)
      (below₁.of_bound made'.bound (by decide)) _ customer.found
      (made'.grows.cashAccounts _ _ at_till) after
    apply FitsIn.locked
    intro k mem
    rw [List.mem_singleton.mp mem]
    exact made'.later.locked locked₁

theorem sound_markPaid {id : Id} {paidOn : Date} {cashAccount : Option (Id × CashAccount)}
    {method : Option PaymentMethod}
    {post : Books -> Rows Movement -> Trail Books Row Note -> Prop} (fit : Fit s t)
    (grows : Grows s (t.writes s)) (start : Below t 0)
    (named : ∀ till, cashAccount = some till ->
      (t.writes s).cashAccounts.get? till.1 = some till.2)
    (after : ∀ written t', Served s t' written -> post s written t') :
    Sound convention (markPaid id paidOn cashAccount method) s t post := by
  unfold markPaid
  simp only [Prog.bind_eq, sound_bind]
  apply sound_lockInvoice (Below.order start fit rfl)
  intro draft found
  simp only [sound_observe, sound_require]
  refine ⟨?_, ?_⟩
  · intro v rely
    have same : SameInvoice id (t.writes s) v := rely.rows _ List.mem_cons_self
    exact same.remaining draft
  · intro _
    apply sound_collectInvoice (fit.hold _ rfl) grows
      ((start.mono (Nat.zero_le 2)).hold (show (Row.invoice id).kind < 2 from Nat.succ_pos 1))
      List.mem_cons_self named after

end Ledger
end Shiftlush
