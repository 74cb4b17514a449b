import Shiftlush.Ledger.Entries

namespace Shiftlush
namespace Ledger

/-!
# What one transaction commits

`LedgerStep` lists what a transaction of the ledger may leave behind, as the
changes of `Entries` followed by the sync of the invoices it touched.  Each
keeps `Inv`.
-/

/-! ## Syncing invoices -/

/-- `w` is `v` with the status of the invoices `ids` synced. -/
structure Syncs (ids : List Id) (v w : Books) : Prop where
  rest : w = { v with invoices := w.invoices }
  keys : w.invoices.map Prod.fst = v.invoices.map Prod.fst
  rows : ∀ id, w.invoices.get? id = (v.invoices.get? id).map (fun i =>
    if id ∈ ids ∧ i.standing = true then i.settle (v.settlement id i) else i)

/-- The same invoice but for its status, between issued and paid, and `paid_on`. -/
structure Alike (i j : InvoiceDraft) : Prop where
  company : j.company = i.company
  customer : j.customer = i.customer
  currency : j.currency = i.currency
  total : j.total = i.total
  invoiceDate : j.invoiceDate = i.invoiceDate
  cancelledAt : j.cancelledAt = i.cancelledAt
  standing : j.standing = i.standing
  draft : j.status = .draft ↔ i.status = .draft
  cancelled : j.status = .cancelled ↔ i.status = .cancelled

namespace Alike

theorem refl (i : InvoiceDraft) : Alike i i :=
  ⟨rfl, rfl, rfl, rfl, rfl, rfl, rfl, Iff.rfl, Iff.rfl⟩

theorem voucher {i j : InvoiceDraft} (alike : Alike i j) (id account : Id) :
    j.voucher id account = i.voucher id account := by
  unfold InvoiceDraft.voucher
  rw [alike.invoiceDate, alike.total]

end Alike

/-- A settlement is one of the two payable statuses. -/
theorem settlement_payable (v : Books) (id : Id) (i : InvoiceDraft) :
    (v.settlement id i).1 = .paid ∨ (v.settlement id i).1 = .issued := by
  unfold Books.settlement
  split
  · exact Or.inl rfl
  · split
    · exact Or.inl rfl
    · exact Or.inr rfl

theorem alike_settle (v : Books) (id : Id) {i : InvoiceDraft} (standing : i.standing = true) :
    Alike i (i.settle (v.settlement id i)) := by
  have live : i.cancelledAt.isNone = true ∧ i.status.payable = true := by
    unfold InvoiceDraft.standing at standing
    rw [Bool.and_eq_true] at standing
    exact ⟨standing.2, standing.1⟩
  have payable := settlement_payable v id i
  refine ⟨rfl, rfl, rfl, rfl, rfl, rfl, ?_, ?_, ?_⟩
  · rw [standing]
    unfold InvoiceDraft.standing InvoiceDraft.settle
    rcases payable with paid | issued
    · rw [paid, live.1]
      rfl
    · rw [issued, live.1]
      rfl
  · constructor
    · intro draft
      rcases payable with status | status
      · exact nomatch draft.symm.trans status
      · exact nomatch draft.symm.trans status
    · intro draft
      rw [draft] at live
      exact nomatch live.2
  · constructor
    · intro cancelled
      rcases payable with status | status
      · exact nomatch cancelled.symm.trans status
      · exact nomatch cancelled.symm.trans status
    · intro cancelled
      rw [cancelled] at live
      exact nomatch live.2

namespace Syncs

variable {ids : List Id} {v w : Books}

theorem nothing (v : Books) : Syncs [] v v := by
  refine ⟨rfl, rfl, ?_⟩
  intro id
  cases v.invoices.get? id with
  | none => rfl
  | some i => simp

/-- Where an invoice comes from. -/
theorem before (syncs : Syncs ids v w) {id : Id} {j : InvoiceDraft}
    (found : w.invoices.get? id = some j) : ∃ i, v.invoices.get? id = some i ∧ Alike i j ∧
      (id ∈ ids -> i.standing = true -> j.status = (v.settlement id i).1) ∧
      (id ∉ ids -> j = i) := by
  rw [syncs.rows] at found
  rcases Option.map_eq_some_iff.mp found with ⟨i, at_i, same⟩
  refine ⟨i, at_i, ?_⟩
  by_cases synced : id ∈ ids ∧ i.standing = true
  · rw [if_pos synced] at same
    cases same
    exact ⟨alike_settle v id synced.2, fun _ _ => rfl, fun other => absurd synced.1 other⟩
  · rw [if_neg synced] at same
    cases same
    exact ⟨.refl _, fun mem standing => absurd ⟨mem, standing⟩ synced, fun _ => rfl⟩

/-- Where an invoice goes. -/
theorem after (syncs : Syncs ids v w) {id : Id} {i : InvoiceDraft}
    (found : v.invoices.get? id = some i) :
    ∃ j, w.invoices.get? id = some j ∧ Alike i j := by
  rw [syncs.rows, found]
  by_cases synced : id ∈ ids ∧ i.standing = true
  · exact ⟨_, congrArg some (if_pos synced), alike_settle v id synced.2⟩
  · exact ⟨_, congrArg some (if_neg synced), .refl i⟩

end Syncs

theorem SoundBooks.syncs {v w : Books} (sound : SoundBooks v) {ids : List Id}
    (syncs : Syncs ids v w) : SoundBooks w := by
  have before := @Syncs.before ids v w syncs
  have after := @Syncs.after ids v w syncs
  have keys := syncs.keys
  rw [syncs.rest] at before after ⊢
  refine
    { movementKeys := sound.movementKeys, documentKeys := sound.documentKeys
      invoiceKeys := ?_
      accountKeys := sound.accountKeys
      cashAccountKeys := sound.cashAccountKeys
      documents := ?_, invoices := ?_, marked := ?_, known := ?_
      currencies := fun r mem => (sound.currencies r mem).mono (fun _ _ found => found)
        (fun _ _ found => found)
      accounts := sound.accounts
      applied := ?_, collected := ?_, unpaid := ?_
      allocated := sound.allocated, openings := sound.openings
      openingFirst := sound.openingFirst }
  · unfold Rows.Distinct
    rw [keys]
    exact sound.invoiceKeys
  · intro id d found
    apply (sound.documents id d found).congr
    rfl
  · intro id j found
    rcases before found with ⟨i, at_i, alike, _⟩
    cases sound.invoices id i at_i with
    | unposted standing empty => exact .unposted (alike.standing.trans standing) empty
    | @posted account status customer entered =>
        refine @InvoiceEntered.posted _ id j account ?_ ?_ ?_
        · exact fun draft => status (alike.draft.mp draft)
        · rw [alike.total, alike.customer, alike.currency]
          exact customer
        · rw [alike.voucher, alike.standing]
          apply entered.congr
          rfl
  · intro id j found
    rcases before found with ⟨i, at_i, alike, _⟩
    rw [alike.cancelledAt, sound.marked id i at_i]
    exact decide_eq_decide.mpr alike.cancelled.symm
  · intro r mem
    apply (sound.known r mem).mono
    · intro id i found
      rcases after found with ⟨j, at_j, _⟩
      exact ⟨j, at_j⟩
    · exact fun _ d found => ⟨d, found, rfl⟩
  · intro r mem
    apply (sound.applied r mem).mono
    · exact fun _ d found => ⟨d, found, rfl⟩
    · intro id i found
      rcases after found with ⟨j, at_j, alike⟩
      exact ⟨j, at_j, alike.customer, alike.currency,
        fun status draft => status (alike.draft.mp draft)⟩
    · exact fun _ _ found => found
  · intro id j found standing
    rcases before found with ⟨i, at_i, alike, _⟩
    rw [alike.total]
    exact sound.collected id i at_i (alike.standing.symm.trans standing)
  · intro id j found standing
    rcases before found with ⟨i, at_i, alike, _⟩
    exact sound.unpaid id i at_i (alike.standing.symm.trans standing)

/-- Synced invoices have the right status; so do those that were right and that
nothing touched. -/
theorem SoundBooks.inv {v w : Books} (sound : SoundBooks v) {ids : List Id}
    (syncs : Syncs ids v w) (others : ∀ id ∉ ids, Synced v id) : Inv w := by
  refine { sound.syncs syncs with synced := ?_ }
  intro id j found standing
  rcases syncs.before found with ⟨i, at_i, alike, settled, same⟩
  have issued : i.standing = true := alike.standing.symm.trans standing
  have collected : w.invoiceCollected id = v.invoiceCollected id := by
    rw [syncs.rest]
    rfl
  unfold Books.invoiceRemaining
  rw [collected, alike.total]
  by_cases mem : id ∈ ids
  · rw [settled mem issued]
    unfold Books.settlement
    have nonneg := sound.invoiceCollected_nonneg id
    by_cases zero : i.total = 0
    · rw [if_pos zero, zero]
      exact iff_of_true rfl (Int.sub_nonpos_of_le nonneg)
    · rw [if_neg zero]
      by_cases covered : v.invoiceRemaining id i ≤ 0
      · rw [if_pos covered]
        exact iff_of_true rfl covered
      · rw [if_neg covered]
        exact iff_of_false (fun paid => nomatch paid) covered
  · rw [same mem]
    exact others id mem i at_i issued

/-! ## Issuing and cancelling an invoice -/

theorem SoundBooks.unissued {v : Books} (sound : SoundBooks v) {id : Id} {draft : InvoiceDraft}
    (found : v.invoices.get? id = some draft) (status : draft.status = .draft) :
    v.movementsOf (invoiceRef id) = [] := by
  cases sound.invoices id draft found with
  | unposted _ empty => exact empty
  | posted issued => exact absurd status issued

/-- An issued invoice, not cancelled, has its originals and no mirror. -/
theorem SoundBooks.issued {v : Books} (sound : SoundBooks v) {id : Id} {draft : InvoiceDraft}
    (found : v.invoices.get? id = some draft) (standing : draft.standing = true) :
    ∃ account originals, Originals (draft.voucher id account) originals ∧
      v.movementsOf (invoiceRef id) = originals ∧ (draft.total ≠ 0 ->
        ∃ row, v.accountOf draft.customer draft.currency = some (account, row)) := by
  cases sound.invoices id draft found with
  | unposted dropped _ =>
      rw [standing] at dropped
      cases dropped
  | @posted account _ customer entered =>
      rw [standing] at entered
      cases entered with
      | standing originals rows => exact ⟨account, _, originals, rows, customer⟩

theorem cancelled_standing (draft : InvoiceDraft) (day : Date) (reason : String) :
    (draft.cancelled day reason).standing = false := rfl

/-- `cancel` with the mirrors of the invoice's movements, if it has any. -/
theorem SoundBooks.cancellable {v : Books} (sound : SoundBooks v) {id : Id} {draft : InvoiceDraft}
    {rows : Rows Movement} (found : v.invoices.get? id = some draft)
    (live : draft.status = .draft ∨ draft.status.payable = true)
    (mirrors : Mirrors (v.movementsOf (invoiceRef id)) rows) (keys : Rows.Distinct rows)
    (fresh : ∀ r ∈ rows, v.movements.get? r.1 = none)
    (collected : draft.standing = true -> v.invoiceCollected id ≤ 0) (day : Date)
    (reason : String) : Changeable v id draft (draft.cancelled day reason) rows := by
  have standing : draft.status ≠ .draft -> draft.standing = true := by
    intro issued
    have payable := live.resolve_left issued
    have marked := sound.marked id draft found
    have status : draft.status ≠ .cancelled := by
      intro status
      rw [status] at payable
      cases payable
    rw [decide_eq_false status, Option.isSome_eq_false_iff] at marked
    unfold InvoiceDraft.standing
    rw [payable, marked]
    rfl
  refine
    { found := found, customer := rfl, currency := rfl, status := (fun same => InvoiceStatus.noConfusion same)
      marked := rfl, document := mirrors.document, keys := keys, fresh := fresh
      currencies := mirrors.currencies sound.currencies
      after := fun r mem original => absurd original (mirrors.reversed r mem)
      entered := ?_, collected := (fun standing => nomatch standing), unpaid := ?_ }
  · intro w appended accounts
    by_cases status : draft.status = .draft
    · rw [sound.unissued found status] at mirrors appended
      rcases mirrors with ⟨_, _, none⟩
      rw [List.map_nil, List.map_eq_nil_iff] at none
      apply InvoiceEntered.unposted rfl
      rw [appended, none]
      rfl
    · rcases sound.issued found (standing status) with ⟨account, originals, are, rows_eq, customer⟩
      refine @InvoiceEntered.posted w id _ account (fun same => InvoiceStatus.noConfusion same) ?_ ?_
      · intro total
        rcases customer total with ⟨row, at_row⟩
        refine ⟨row, ?_⟩
        unfold Books.accountOf
        rw [accounts]
        exact at_row
      · rw [rows_eq] at mirrors appended
        exact Entered.cancelled are mirrors appended
  · intro _ r mem
    by_cases status : draft.status = .draft
    · rw [sound.draft_has_none found status] at mem
      cases mem
    · by_contra stands
      have unpaid := collected (standing status)
      have positive := (sound.applied r (List.mem_of_mem_filter mem)).positive
      have paid : 0 < v.invoiceCollected id := by
        refine Rows.total_pos (r := r) ?_ mem ?_
        · rw [if_pos (Bool.not_eq_false _ ▸ stands)]
          exact positive
        · intro r' mem'
          have positive' := (sound.applied r' (List.mem_of_mem_filter mem')).positive
          split
          · exact Int.le_of_lt positive'
          · exact Int.le_refl 0
      exact absurd unpaid (Int.not_le.mpr paid)

/-- `issue`, with the debit on the customer's account unless the total is zero. -/
theorem SoundBooks.issuable {v : Books} (sound : SoundBooks v) {id account : Id}
    {draft new : InvoiceDraft} {rows : Rows Movement} (found : v.invoices.get? id = some draft)
    (status : draft.status = .draft) (customer : new.customer = draft.customer)
    (currency : new.currency = draft.currency) (issued : new.standing = true)
    (total : 0 ≤ new.total) (originals : Originals (new.voucher id account) rows)
    (live : new.total ≠ 0 -> ∃ row, v.accountOf new.customer new.currency = some (account, row))
    (fresh : ∀ r ∈ rows, v.movements.get? r.1 = none)
    (currencies : ∀ r ∈ rows, InOwnCurrency v r.2)
    (after : ∀ r ∈ rows, ∀ side, r.2.on side = true ->
      ∀ o ∈ v.standingOpenings side, o.2.date ≤ r.2.date) :
    Changeable v id draft new rows := by
  have parts : new.status.payable = true ∧ new.cancelledAt.isNone = true := by
    unfold InvoiceDraft.standing at issued
    rwa [Bool.and_eq_true] at issued
  refine
    { found := found, customer := customer, currency := currency
      status := standing_status issued, marked := ?_
      document := Enterable.originals_document originals
      keys := Enterable.originals_keys originals, fresh := fresh, currencies := currencies
      after := fun r mem _ => after r mem, entered := ?_, collected := ?_, unpaid := ?_ }
  · have live : new.status ≠ .cancelled := by
      intro cancelled
      rw [cancelled] at parts
      exact nomatch parts.1
    rw [decide_eq_false live, Option.isSome_eq_false_iff]
    exact parts.2
  · intro w appended accounts
    refine @InvoiceEntered.posted w id new account (standing_status issued) ?_ ?_
    · intro nonzero
      rcases live nonzero with ⟨row, at_row⟩
      refine ⟨row, ?_⟩
      unfold Books.accountOf
      rw [accounts]
      exact at_row
    · rw [issued]
      rw [sound.unissued found status, List.nil_append] at appended
      exact Entered.standing originals appended
  · intro _
    have none : v.invoiceCollected id = 0 := by
      unfold Books.invoiceCollected
      rw [sound.draft_has_none found status]
      rfl
    rw [none]
    exact total
  · intro dropped
    rw [issued] at dropped
    cases dropped

/-! ## The steps -/

/-- What a transaction takes `s` to, and the movements it writes. -/
inductive LedgerStep (s s' : Books) (written : Rows Movement) : Prop where
  | grown : Grows s s' -> written = [] -> LedgerStep s s' written
  | recorded {u id d applications touched} : Grows s u -> Enterable u id d written ->
      applications = [] ∨ Applicable (u.enter id d written) id applications ->
      (∀ r ∈ applications, r.2.invoice ∈ touched) ->
      Syncs touched ((u.enter id d written).addApplications applications) s' ->
      LedgerStep s s' written
  | applied {id applications touched} : Applicable s id applications ->
      (∀ r ∈ applications, r.2.invoice ∈ touched) ->
      Syncs touched (s.addApplications applications) s' -> written = [] -> LedgerStep s s' written
  | reversed {id d day touched} : Reversible s id d written ->
      (∀ r ∈ s.applicationsOf id, r.2.invoice ∈ touched) ->
      Syncs touched (s.reverse id day written) s' -> LedgerStep s s' written
  | issued {u id draft new f} : Grows s u -> Changeable u id draft new written -> f draft = new ->
      new.standing = true -> Syncs [id] (u.change id f written) s' -> LedgerStep s s' written
  | cancelled {id draft new f} : Changeable s id draft new written -> f draft = new ->
      new.standing = false -> new.total = draft.total -> s' = s.change id f written ->
      LedgerStep s s' written

/-- An invoice whose row and applications a change leaves alone. -/
theorem Synced.change {v : Books} {id : Id} {rows : Rows Movement}
    {f : InvoiceDraft -> InvoiceDraft} {other : Id} (synced : Synced v other)
    (different : other ≠ id) : Synced (v.change id f rows) other := by
  apply synced.congr
  · exact Rows.get?_update_of_ne different
  · rfl

/-- Movements are only ever appended. -/
theorem LedgerStep.movements {s s' : Books} {written : Rows Movement}
    (step : LedgerStep s s' written) : s'.movements = s.movements ++ written := by
  cases step with
  | grown grows none => rw [none, grows.movements, List.append_nil]
  | recorded grows _ _ _ syncs =>
      rw [syncs.rest]
      exact congrArg (· ++ written) grows.movements
  | applied _ _ syncs none =>
      rw [syncs.rest, none, List.append_nil]
      rfl
  | reversed _ _ syncs =>
      rw [syncs.rest]
      rfl
  | issued grows _ _ _ syncs =>
      rw [syncs.rest]
      exact congrArg (· ++ written) grows.movements
  | cancelled _ _ _ _ same =>
      rw [same]
      rfl

/-- Every step keeps the invariant. -/
theorem LedgerStep.inv {s s' : Books} {written : Rows Movement} (inv : Inv s)
    (step : LedgerStep s s' written) : Inv s' := by
  cases step with
  | grown grows _ =>
      exact { inv.toSoundBooks.grows grows with
        synced := fun id => grows.synced (inv.synced id) }
  | @recorded u id d applications touched grows enterable applicable touches syncs =>
      have sound := inv.toSoundBooks.grows grows
      have entered := sound.enter enterable
      have applied : SoundBooks ((u.enter id d written).addApplications applications) := by
        rcases applicable with none | applicable
        · rw [none, Books.addApplications, List.append_nil]
          exact entered
        · exact entered.apply applicable
      apply applied.inv syncs
      intro invoice untouched
      apply (grows.synced (inv.synced invoice)).congr
      · rfl
      · rw [Applicable.collected_other, enterable.collected sound]
        intro listed
        rcases List.mem_map.mp listed with ⟨r, mem, same⟩
        exact untouched (same ▸ touches r mem)
  | applied applicable touches syncs _ =>
      apply (inv.toSoundBooks.apply applicable).inv syncs
      intro invoice untouched
      apply (inv.synced invoice).congr
      · rfl
      · rw [Applicable.collected_other]
        intro listed
        rcases List.mem_map.mp listed with ⟨r, mem, same⟩
        exact untouched (same ▸ touches r mem)
  | @reversed id d day touched reversible touches syncs =>
      apply (inv.toSoundBooks.reverse reversible day).inv syncs
      intro invoice untouched
      apply (inv.synced invoice).congr
      · rfl
      · apply invoiceCollected_congr (v := s)
        · rfl
        · intro r mem
          apply Reversible.stands_other
          intro same
          rcases List.mem_filter.mp mem with ⟨listed, at_invoice⟩
          have listed : r ∈ s.applicationsOf id := List.mem_filter.mpr ⟨listed, by simpa using same⟩
          exact untouched (of_decide_eq_true at_invoice ▸ touches r listed)
  | @issued u id draft new f grows changeable makes _ syncs =>
      apply ((inv.toSoundBooks.grows grows).change changeable makes).inv syncs
      intro other different
      apply (grows.synced (inv.synced other)).change
      exact fun same => different (List.mem_singleton.mpr same)
  | @cancelled id draft new f changeable makes dropped _ same =>
      rw [same]
      refine { inv.toSoundBooks.change changeable makes with synced := ?_ }
      intro other
      by_cases here : other = id
      · rw [here]
        intro i found standing
        rw [changeable.becomes makes] at found
        cases found
        rw [dropped] at standing
        cases standing
      · exact (inv.synced other).change here

end Ledger
end Shiftlush
