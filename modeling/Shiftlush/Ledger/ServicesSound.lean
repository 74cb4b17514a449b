import Shiftlush.Ledger.PostingSound

namespace Shiftlush
namespace Ledger

open Transactions

/-!
# The shared steps follow the convention

The rules of the programs that several services share: locking a document or
invoices, numbering, applying a collection, syncing an invoice, finding or
making an account.
-/

variable {s : Books} {t : Trail Books Row Note}

/-! ## Locking documents and invoices -/

theorem kinds_invoice (id : Id) : (Row.invoice id).kind = 0 ∧ (Row.invoice id).key = id ∧
    (Row.invoice id).isCompany = false := ⟨rfl, rfl, rfl⟩

theorem Later.hold (t : Trail Books Row Note) (mode : LockMode) (row : Row) :
    Later t (t.hold mode row) :=
  ⟨fun _ mem => List.mem_cons_of_mem _ mem, fun _ mem => mem, fun _ mem => mem, rfl⟩

theorem Fit.hold (fit : Fit s t) {row : Row} (mode : LockMode) (row_kind : row.isCompany = false) :
    Fit s (t.hold mode row) := by
  refine ⟨fit.confined.weaken locked_hold (fun _ mem => mem), fit.companies, fit.keys, fit.sides, ?_⟩
  intro h mem
  rcases List.mem_cons.mp mem with new | old
  · rw [new]
    exact row_kind
  · exact fit.settings h old

theorem Below.hold {kind : Nat} (below : Below t kind) {mode : LockMode} {row : Row}
    (lt : row.kind < kind) : Below (t.hold mode row) kind := by
  intro h mem
  rcases List.mem_cons.mp mem with new | old
  · rw [new]
    exact lt
  · exact below h old

theorem Below.locking {kind level : Nat} {t' : Trail Books Row Note} (below : Below t kind)
    (bound : ∀ h ∈ t'.held, h ∈ t.held ∨ h.2.kind = level) (lt : level < kind) :
    Below t' kind := by
  intro h mem
  rcases bound h mem with old | new
  · exact below h old
  · rw [new]
    exact lt

theorem Below.start (kind : Nat) (retries : Nat) : Below (.start retries) kind :=
  fun _ mem => absurd mem List.not_mem_nil

theorem Below.order {row : Row} (below : Below t row.kind) (fit : Fit s t)
    (row_kind : row.isCompany = false) : Order s t.held t.retries .update row :=
  ⟨fit.no_company, .next row_kind (fun h mem => Or.inr (Or.inl (below h mem)))⟩

theorem sound_lockInvoices {ids : List Id} {post : Books -> Unit -> Trail Books Row Note -> Prop}
    (fit : Fit s t) (fits : FitsIn t Row.invoice ids)
    (after : ∀ t', Locking t t' -> Fit s t' -> (∀ id ∈ ids, t'.Locked (.invoice id)) ->
      (∀ h ∈ t'.held, h ∈ t.held ∨ h.2.kind = 0) -> post s () t') :
    Sound convention (lockInvoices ids) s t post := by
  unfold lockInvoices
  simp only [Prog.bind_eq, sound_bind]
  apply sound_lockKeys kinds_invoice fit fits
  intro _ t' locking fit' locked bound
  exact after t' locking fit' locked bound

theorem sound_lockInvoice {id : Id} {post : Books -> InvoiceDraft -> Trail Books Row Note -> Prop}
    (order : Order s t.held t.retries .update (.invoice id))
    (after : ∀ draft, (t.writes s).invoices.get? id = some draft ->
      post s draft (t.hold .update (.invoice id))) :
    Sound convention (lockInvoice id) s t post := by
  unfold lockInvoice
  simp only [Prog.bind_eq, sound_bind, sound_lock, sound_fetch]
  refine ⟨order, ?_⟩
  intro draft found
  refine ⟨?_, after draft found⟩
  intro v rely
  have same : SameInvoice id (t.writes s) v := rely.rows _ List.mem_cons_self
  exact same.row.trans found

theorem sound_lockDocument {type : DocumentType} {id : Id}
    {post : Books -> Document -> Trail Books Row Note -> Prop}
    (order : Order s t.held t.retries .update (.document id))
    (after : ∀ d, (t.writes s).documents.get? id = some d -> d.body.type = type ->
      d.standing = true -> post s d (t.hold .update (.document id))) :
    Sound convention (lockDocument type id) s t post := by
  unfold lockDocument
  simp only [Prog.bind_eq, Prog.pure_eq, sound_bind, sound_lock, sound_fetch, sound_require,
    sound_done]
  refine ⟨order, ?_⟩
  intro d found
  rcases Option.filter_eq_some_iff.mp found with ⟨at_id, type_eq⟩
  refine ⟨?_, after d at_id (of_decide_eq_true type_eq)⟩
  intro v rely
  have kept : (Row.document id).kept (t.writes s) v := rely.rows _ List.mem_cons_self
  exact Option.filter_eq_some_iff.mpr ⟨(kept d at_id).row, type_eq⟩

/-! ## Numbers -/

theorem sound_nextNumber {firm : Id} {numberPrefix : NumberPrefix}
    {post : Books -> Nat -> Trail Books Row Note -> Prop} (fit : Fit s t) (below : Below t 4)
    (after : ∀ number t', Later t t' -> Fit s t' ->
      t'.writes s = (t.writes s).setCounter firm numberPrefix number -> t'.ids = t.ids ->
      (∀ h ∈ t'.held, h ∈ t.held ∨ h.2.kind = 4) -> post s number t') :
    Sound convention (nextNumber firm numberPrefix) s t post := by
  unfold nextNumber
  simp only [Prog.bind_eq, Prog.pure_eq, sound_bind, sound_lock, sound_observe, sound_write,
    sound_done]
  have fit₁ : Fit s (t.hold .update (.counter firm numberPrefix)) := fit.hold _ rfl
  refine ⟨Below.order below fit rfl, ?_, respects_setCounter, ?_, ?_⟩
  · exact fun v rely => rely.rows _ List.mem_cons_self
  · exact confined_setCounter List.mem_cons_self
  · apply after
    · exact ⟨fun _ mem => List.mem_cons_of_mem _ mem, fun _ mem => mem, fun _ mem => mem, rfl⟩
    · exact fit₁.write (confined_setCounter List.mem_cons_self fit₁.confined) rfl fit₁.keys
        fit₁.sides
    · rfl
    · rfl
    · intro h mem
      rcases List.mem_cons.mp mem with new | old
      · exact Or.inr (by rw [new]; rfl)
      · exact Or.inl old

/-! ## What an invoice's lock keeps -/

namespace SameInvoice

variable {id : Id} {v v' : Books}

theorem stands (same : SameInvoice id v v') {r : Id × CollectionApplication}
    (mem : r ∈ v.applicationsOn id) : v'.stands r.2.collection = v.stands r.2.collection := by
  unfold Books.stands
  rw [same.collections r mem]

theorem collected (same : SameInvoice id v v') : v'.invoiceCollected id = v.invoiceCollected id :=
  invoiceCollected_congr same.applications (fun _ mem => same.stands mem)

theorem remaining (same : SameInvoice id v v') (draft : InvoiceDraft) :
    v'.invoiceRemaining id draft = v.invoiceRemaining id draft := by
  unfold Books.invoiceRemaining
  rw [same.collected]

theorem latest (same : SameInvoice id v v') : v'.latestCollection id = v.latestCollection id := by
  have behind : (v'.applicationsOn id).filterMap (fun r => v'.documents.get? r.2.collection) =
      (v.applicationsOn id).filterMap (fun r => v.documents.get? r.2.collection) := by
    rw [same.applications]
    exact List.filterMap_congr same.collections
  unfold Books.latestCollection
  rw [behind]

theorem settlement (same : SameInvoice id v v') (draft : InvoiceDraft) :
    v'.settlement id draft = v.settlement id draft := by
  unfold Books.settlement
  rw [same.remaining, same.latest]

theorem posted (same : SameInvoice id v v') : v'.invoicePosted id = v.invoicePosted id := by
  have movements := same.entries.movements
  unfold Books.invoicePosted
  rw [show v'.movementsOf ⟨.invoiceDraft, id⟩ = v.movementsOf ⟨.invoiceDraft, id⟩ from movements]

end SameInvoice

/-! ## sync_invoice_status -/

/-- Settling one more invoice. -/
theorem Syncs.one (v : Books) {id : Id} {draft : InvoiceDraft}
    (found : v.invoices.get? id = some draft) (standing : draft.standing = true) :
    Syncs [id] v (v.updateInvoice id (·.settle (v.settlement id draft))) := by
  refine ⟨rfl, Rows.keys_update v.invoices id (·.settle (v.settlement id draft)), ?_⟩
  intro k
  unfold Books.updateInvoice
  rw [Rows.get?_update]
  by_cases here : k = id
  · rw [if_pos here, here, found]
    simp [standing]
  · rw [if_neg here]
    cases v.invoices.get? k with
    | none => rfl
    | some i => simp [here]

/-- Nothing to write: the invoice has its status already, or is not synced. -/
theorem Syncs.none (v : Books) {id : Id} {draft : InvoiceDraft}
    (found : v.invoices.get? id = some draft)
    (same : draft.standing = true -> draft.settle (v.settlement id draft) = draft) :
    Syncs [id] v v := by
  refine ⟨rfl, rfl, ?_⟩
  intro k
  by_cases here : k = id
  · rw [here, found]
    by_cases standing : draft.standing = true
    · simp [standing, same standing]
    · simp [standing]
  · cases v.invoices.get? k with
    | none => rfl
    | some i => simp [here]

/-- What an invoice is synced to does not depend on the other invoices. -/
theorem settlement_congr {v w : Books} (rest : w = { v with invoices := w.invoices }) (id : Id)
    (i : InvoiceDraft) : w.settlement id i = v.settlement id i := by
  rw [rest]
  rfl

theorem Syncs.step {done : List Id} {v w x : Books} {id : Id} (first : Syncs done v w)
    (second : Syncs [id] w x) (new : id ∉ done) : Syncs (done ++ [id]) v x := by
  refine ⟨?_, second.keys.trans first.keys, ?_⟩
  · rw [second.rest, first.rest]
  · intro k
    rw [second.rows, first.rows]
    cases v.invoices.get? k with
    | none => rfl
    | some i =>
        by_cases here : k = id
        · subst here
          simp [new, settlement_congr first.rest]
        · simp [here]

theorem Syncs.congr {ids ids' : List Id} {v w : Books} (syncs : Syncs ids v w)
    (same : ∀ id, id ∈ ids ↔ id ∈ ids') : Syncs ids' v w := by
  refine ⟨syncs.rest, syncs.keys, ?_⟩
  intro id
  rw [syncs.rows id]
  simp only [same]

/-- What `sync_invoice_status` leaves behind. -/
structure Settling (s : Books) (t t' : Trail Books Row Note) (ids : List Id) : Prop where
  later : Later t t'
  fit : Fit s t'
  held : t'.held = t.held
  syncs : Syncs ids (t.writes s) (t'.writes s)

theorem sound_syncInvoiceStatus {id : Id} {post : Books -> Unit -> Trail Books Row Note -> Prop}
    (fit : Fit s t) (locked : t.Locked (.invoice id))
    (after : ∀ t', Settling s t t' [id] -> post s () t') :
    Sound convention (syncInvoiceStatus id) s t post := by
  unfold syncInvoiceStatus
  simp only [Prog.bind_eq, sound_bind, sound_fetch]
  intro draft found
  refine ⟨?_, ?_⟩
  · intro v rely
    have same : SameInvoice id (t.writes s) v := rely.rows _ locked
    exact same.row.trans found
  by_cases standing : draft.standing = true
  · rw [if_pos standing]
    simp only [sound_bind, sound_observe]
    refine ⟨?_, ?_⟩
    · intro v rely
      have same : SameInvoice id (t.writes s) v := rely.rows _ locked
      exact same.settlement draft
    · by_cases already : (draft.status, draft.paidOn) = (t.writes s).settlement id draft
      · rw [if_pos already]
        apply after t
        refine ⟨.refl t, fit, rfl, .none _ found ?_⟩
        intro _
        unfold InvoiceDraft.settle
        rw [← already]
      · rw [if_neg already]
        simp only [sound_write]
        refine ⟨respects_updateInvoice, confined_updateInvoice locked, ?_⟩
        apply after
        refine ⟨⟨fun _ mem => mem, fun _ mem => mem, fun _ mem => mem, rfl⟩, ?_, rfl,
          .one _ found standing⟩
        exact fit.write (confined_updateInvoice locked fit.confined) rfl fit.keys fit.sides
  · rw [if_neg standing]
    apply after t
    exact ⟨.refl t, fit, rfl, .none _ found (fun issued => absurd issued standing)⟩

theorem sound_syncInvoices {ids : List Id} {post : Books -> Unit -> Trail Books Row Note -> Prop}
    (fit : Fit s t) (locked : ∀ id ∈ ids, t.Locked (.invoice id))
    (after : ∀ t', Settling s t t' ids -> post s () t') :
    Sound convention (syncInvoices ids) s t post := by
  unfold syncInvoices
  simp only [Prog.bind_eq, sound_bind]
  refine Sound.forEach (fun done _ s' t' => s' = s ∧ Settling s t t' done) ?_ ?_ ?_
  · exact ⟨rfl, .refl t, fit, rfl, .nothing _⟩
  · rintro done id rest answers s' t' split ⟨same, synced⟩
    rw [same]
    have mem : id ∈ sortedKeys ids := by
      rw [split]
      exact List.mem_append_right _ List.mem_cons_self
    have new : id ∉ done := by
      have nodup := nodup_sortedKeys ids
      rw [split] at nodup
      exact fun old => (List.nodup_append.mp nodup).2.2 id old id List.mem_cons_self rfl
    apply sound_syncInvoiceStatus synced.fit (synced.later.locked (locked id (mem_sortedKeys.mp mem)))
    intro t'' more
    exact ⟨rfl, synced.later.trans more.later, more.fit, more.held.trans synced.held,
      synced.syncs.step more.syncs new⟩
  · rintro answers s' t' ⟨same, synced⟩
    rw [same]
    apply after
    exact ⟨synced.later, synced.fit, synced.held, synced.syncs.congr (fun _ => mem_sortedKeys)⟩

/-! ## _apply -/

theorem shareOf_nil (id : Id) : shareOf [] id = 0 := rfl

theorem shareOf_cons (part : Id × Cents) (parts : List (Id × Cents)) (id : Id) :
    shareOf (part :: parts) id = (if part.1 = id then part.2 else 0) + shareOf parts id := by
  unfold shareOf
  by_cases here : part.1 = id
  · rw [List.filter_cons_of_pos (by simpa using here), if_pos here, List.map_cons, List.sum_cons]
  · rw [List.filter_cons_of_neg (by simpa using here), if_neg here, zero_add]

/-- A sum with one key in it. -/
theorem sum_single {keys : List Id} (nodup : keys.Nodup) {key : Id} (mem : key ∈ keys) (x : Cents) :
    (keys.map (fun id => if key = id then x else 0)).sum = x := by
  induction keys with
  | nil => cases mem
  | cons id keys ih =>
      have parts := List.nodup_cons.mp nodup
      rw [List.map_cons, List.sum_cons]
      by_cases here : key = id
      · have others : keys.map (fun id => if key = id then x else 0) = keys.map (fun _ => 0) := by
          apply List.map_congr_left
          intro id' mem'
          apply if_neg
          intro same
          rw [← same, here] at mem'
          exact parts.1 mem'
        rw [if_pos here, others]
        simp
      · rw [if_neg here, zero_add]
        exact ih parts.2 ((List.mem_cons.mp mem).resolve_left here)

/-- The shares add up to the parts. -/
theorem sum_shareOf {keys : List Id} (nodup : keys.Nodup) (parts : List (Id × Cents))
    (listed : ∀ part ∈ parts, part.1 ∈ keys) :
    (keys.map (shareOf parts)).sum = (parts.map (·.2)).sum := by
  induction parts with
  | nil =>
      have zero : keys.map (shareOf []) = keys.map (fun _ => 0) :=
        List.map_congr_left (fun id _ => shareOf_nil id)
      rw [zero]
      simp
  | cons part parts ih =>
      have rest := ih (fun p mem => listed p (List.mem_cons_of_mem _ mem))
      have one := sum_single nodup (listed part List.mem_cons_self) part.2
      rw [List.map_cons, List.sum_cons, ← rest, ← one, ← List.sum_map_add]
      apply congrArg List.sum
      apply List.map_congr_left
      intro id _
      exact shareOf_cons part parts id

/-- A share of positive parts, at least one of them, is positive. -/
theorem shareOf_pos {parts : List (Id × Cents)} (positive : ∀ part ∈ parts, 0 < part.2) {id : Id}
    (listed : ∃ part ∈ parts, part.1 = id) : 0 < shareOf parts id := by
  have nonneg : ∀ {rest : List (Id × Cents)}, (∀ part ∈ rest, 0 < part.2) ->
      0 ≤ shareOf rest id := by
    intro rest positive
    apply List.sum_nonneg
    intro x mem
    rcases List.mem_map.mp mem with ⟨part, at_part, rfl⟩
    exact Int.le_of_lt (positive part (List.mem_of_mem_filter at_part))
  induction parts with
  | nil =>
      rcases listed with ⟨_, mem, _⟩
      cases mem
  | cons part parts ih =>
      have tail : ∀ part ∈ parts, 0 < part.2 :=
        fun p mem => positive p (List.mem_cons_of_mem _ mem)
      rw [shareOf_cons]
      by_cases here : part.1 = id
      · rw [if_pos here]
        exact Int.add_pos_of_pos_of_nonneg (positive part List.mem_cons_self) (nonneg tail)
      · rw [if_neg here, zero_add]
        rcases listed with ⟨p, mem, same⟩
        rcases List.mem_cons.mp mem with rfl | mem
        · exact absurd same here
        · exact ih tail ⟨p, mem, same⟩

theorem sound_checkApplies {firm : Id} {applies : List (Id × Decimal)}
    {post : Books -> List (Id × Cents) -> Trail Books Row Note -> Prop}
    (locked : ∀ apply ∈ applies, t.Locked (.invoice apply.1))
    (after : ∀ parts, parts.map (·.1) = applies.map (·.1) -> (∀ part ∈ parts, 0 < part.2) ->
      post s parts t) :
    Sound convention (checkApplies firm applies) s t post := by
  unfold checkApplies
  refine Sound.forEach (fun done parts s' t' => s' = s ∧ t' = t ∧
    parts.map (·.1) = done.map (·.1) ∧ ∀ part ∈ parts, 0 < part.2) ?_ ?_ ?_
  · exact ⟨rfl, rfl, rfl, fun _ mem => absurd mem List.not_mem_nil⟩
  · rintro done apply rest parts s' t' split ⟨rfl, rfl, keys, positive⟩
    simp only [Prog.bind_eq, Prog.pure_eq, sound_bind, sound_fetch, sound_require, sound_done]
    intro draft found
    have mem : apply ∈ applies := by
      rw [split]
      exact List.mem_append_right _ List.mem_cons_self
    refine ⟨?_, ?_⟩
    · intro v rely
      have same : SameInvoice apply.1 (t'.writes s') v := rely.rows _ (locked apply mem)
      exact same.row.trans found
    · intro _ money
      rcases Decimal.isMoney_iff.mp money with ⟨cents, at_cents, above⟩
      refine ⟨trivial, trivial, ?_, ?_⟩
      · rw [List.map_append, List.map_append, keys]
        rfl
      · intro part mem
        rcases List.mem_append.mp mem with old | new
        · exact positive part old
        · rw [List.mem_singleton.mp new, at_cents]
          exact above
  · rintro parts s' t' ⟨rfl, rfl, keys, positive⟩
    exact after parts keys positive

theorem Source.mono {v v' : Books} {t' : Trail Books Row Note} {collection : Id}
    (source : Source t s v collection) (later : Later t t') (documents : v'.documents = v.documents) :
    Source t' s v' collection := by
  rcases source with ⟨locked, d, found⟩ | ⟨mine, unused⟩
  · exact Or.inl ⟨later.locked locked, d, documents ▸ found⟩
  · exact Or.inr ⟨later.ids _ mine, unused⟩

/-- What one application has been checked against. -/
structure PayableFrom (v : Books) (account : Account) (share : Cents) (id : Id) : Prop where
  draft : ∃ draft, v.invoices.get? id = some draft ∧ draft.standing = true ∧
    account.party = .customer draft.customer ∧ account.currency = draft.currency ∧
    share ≤ v.invoiceRemaining id draft

/-- What `_apply` leaves behind for one invoice. -/
structure AppliedOne (s : Books) (t t' : Trail Books Row Note) (application : Id)
    (row : CollectionApplication) : Prop where
  later : Later t t'
  fit : Fit s t'
  held : t'.held = t.held
  view : t'.writes s = (t.writes s).addApplication application row

theorem sound_applyOne {collection firm : Id} {account : Account} {share : Cents} {id : Id}
    {post : Books -> Unit -> Trail Books Row Note -> Prop} (fit : Fit s t)
    (locked : t.Locked (.invoice id)) (source : Source t s (t.writes s) collection)
    (after : ∀ application t', PayableFrom (t.writes s) account share id ->
      AppliedOne s t t' application ⟨firm, collection, id, share⟩ -> post s () t') :
    Sound convention (applyOne collection firm account share id) s t post := by
  unfold applyOne
  simp only [Prog.bind_eq, sound_bind, sound_fetch, sound_require, sound_ensure, sound_fresh,
    sound_write]
  intro draft found
  rcases Option.filter_eq_some_iff.mp found with ⟨at_id, firm_eq⟩
  have sameAt : ∀ v, convention.Rely t (t.writes s) v -> SameInvoice id (t.writes s) v :=
    fun v rely => rely.rows _ locked
  refine ⟨?_, ?_⟩
  · intro v rely
    exact Option.filter_eq_some_iff.mpr ⟨(sameAt v rely).row.trans at_id, firm_eq⟩
  intro payable currency remaining
  refine ⟨?_, ?_⟩
  · intro v rely
    rw [(sameAt v rely).remaining]
    exact remaining
  intro once
  refine ⟨?_, ?_⟩
  · intro v rely
    rw [(sameAt v rely).applications]
    exact once
  intro application unused above
  rw [Bool.and_eq_true] at payable
  have fit₁ : Fit s (t.draw application) := fit.draw application
  have source₁ : Source (t.draw application) s (t.writes s) collection :=
    source.mono ⟨fun _ mem => mem, mem_draw, fun _ mem => mem, rfl⟩ rfl
  refine ⟨respects_addApplication source₁,
    confined_addApplication List.mem_cons_self source₁ locked, ?_⟩
  refine after application _ ⟨draft, at_id, payable.1, of_decide_eq_true payable.2,
    (of_decide_eq_true currency).symm, of_decide_eq_true remaining⟩ ?_
  refine ⟨⟨fun _ mem => mem, mem_draw, fun _ mem => mem, rfl⟩, ?_, rfl, rfl⟩
  exact fit₁.write (confined_addApplication List.mem_cons_self source₁ locked fit₁.confined) rfl
    fit₁.keys fit₁.sides

/-- What `_apply` leaves behind. -/
structure AppliedAll (s : Books) (t t' : Trail Books Row Note) (collection : Id)
    (account : Account) (rows : Rows CollectionApplication) : Prop where
  later : Later t t'
  fit : Fit s t'
  held : t'.held = t.held
  view : t'.writes s = (t.writes s).addApplications rows
  checked : ∀ r ∈ rows, r.2.collection = collection ∧
    PayableFrom (t.writes s) account r.2.amount r.2.invoice

theorem PayableFrom.addApplications {v : Books} {account : Account} {share : Cents} {id : Id}
    {rows : Rows CollectionApplication}
    (payable : PayableFrom (v.addApplications rows) account share id)
    (other : id ∉ rows.map (fun r => r.2.invoice)) : PayableFrom v account share id := by
  rcases payable.draft with ⟨draft, found, standing, party, currency, remaining⟩
  refine ⟨draft, found, standing, party, currency, ?_⟩
  unfold Books.invoiceRemaining at remaining ⊢
  rw [Applicable.collected_other other] at remaining
  exact remaining

theorem sound_applyTo {collection firm : Id} {account : Account} {limit : Cents}
    {applies : List (Id × Decimal)} {post : Books -> Unit -> Trail Books Row Note -> Prop}
    (fit : Fit s t) (locked : ∀ id ∈ applies.map (·.1), t.Locked (.invoice id))
    (source : Source t s (t.writes s) collection)
    (after : ∀ rows t', AppliedAll s t t' collection account rows ->
      rows.map (fun r => r.2.invoice) = sortedKeys (applies.map (·.1)) ->
      (∀ r ∈ rows, 0 < r.2.amount) -> Rows.total rows (fun _ a => a.amount) ≤ limit ->
      post s () t') :
    Sound convention (applyTo collection firm account limit applies) s t post := by
  unfold applyTo
  simp only [Prog.bind_eq, sound_bind]
  apply sound_checkApplies
  · exact fun apply mem => locked apply.1 (List.mem_map_of_mem (f := fun a => a.1) mem)
  intro parts keys positive
  simp only [sound_require]
  intro within
  refine Sound.forEach (fun done _ s' t' => s' = s ∧ ∃ rows,
    AppliedAll s t t' collection account rows ∧ rows.map (fun r => r.2.invoice) = done ∧
    rows.map (fun r => r.2.amount) = done.map (shareOf parts)) ?_ ?_ ?_
  · refine ⟨rfl, [], ⟨.refl t, fit, rfl, ?_, fun _ mem => absurd mem List.not_mem_nil⟩, rfl, rfl⟩
    unfold Books.addApplications
    rw [List.append_nil]
  · rintro done id rest answers s' t' split ⟨same, rows, applied, invoices, amounts⟩
    rw [same]
    have nodup := nodup_sortedKeys (applies.map (·.1))
    have mem : id ∈ applies.map (·.1) := by
      rw [← mem_sortedKeys, split]
      exact List.mem_append_right _ List.mem_cons_self
    have new : id ∉ rows.map (fun r => r.2.invoice) := by
      rw [split] at nodup
      rw [invoices]
      exact fun old => (List.nodup_append.mp nodup).2.2 id old id List.mem_cons_self rfl
    apply sound_applyOne applied.fit (applied.later.locked (locked id mem))
    · apply source.mono applied.later
      rw [applied.view]
      rfl
    intro application t'' payable one
    rw [applied.view] at payable
    refine ⟨rfl, rows ++ [(application, ⟨firm, collection, id, shareOf parts id⟩)], ?_, ?_, ?_⟩
    · refine ⟨applied.later.trans one.later, one.fit, one.held.trans applied.held, ?_, ?_⟩
      · rw [one.view, applied.view]
        unfold Books.addApplication Books.addApplications Rows.insert
        rw [List.append_assoc]
      · intro r mem
        rcases List.mem_append.mp mem with old | last
        · exact applied.checked r old
        · rw [List.mem_singleton.mp last]
          exact ⟨rfl, payable.addApplications new⟩
    · rw [List.map_append, invoices]
      rfl
    · rw [List.map_append, List.map_append, amounts]
      rfl
  · rintro answers s' t' ⟨same, rows, applied, invoices, amounts⟩
    rw [same]
    have listed : ∀ part ∈ parts, part.1 ∈ sortedKeys (applies.map (·.1)) := by
      intro part mem
      rw [mem_sortedKeys, ← keys]
      exact List.mem_map_of_mem (f := fun p => p.1) mem
    have total : Rows.total rows (fun _ a => a.amount) = (parts.map (·.2)).sum := by
      unfold Rows.total
      rw [amounts]
      exact sum_shareOf (nodup_sortedKeys _) parts listed
    apply after rows t' applied invoices
    · intro r mem
      have at_amount : r.2.amount ∈ rows.map (fun r => r.2.amount) :=
        List.mem_map_of_mem (f := fun r => r.2.amount) mem
      rw [amounts] at at_amount
      rcases List.mem_map.mp at_amount with ⟨id, at_id, same⟩
      rw [← same]
      apply shareOf_pos positive
      rw [mem_sortedKeys, ← keys] at at_id
      rcases List.mem_map.mp at_id with ⟨part, at_part, key⟩
      exact ⟨part, at_part, key⟩
    · rw [total]
      exact of_decide_eq_true within

/-! ## Finding or making an account -/

/-- What looking for an account or a till leaves behind: at most a new one. -/
structure Made (s : Books) (t t' : Trail Books Row Note) (kind : Nat) : Prop where
  later : Later t t'
  fit : Fit s t'
  grows : Grows (t.writes s) (t'.writes s)
  bound : ∀ h ∈ t'.held, h ∈ t.held ∨ h.2.kind = kind

theorem Made.nothing (fit : Fit s t) (kind : Nat) : Made s t t kind :=
  ⟨.refl t, fit, .refl _, fun _ mem => Or.inl mem⟩

theorem Made.hold (fit : Fit s t) {row : Row} (row_kind : row.isCompany = false) :
    Made s t (t.hold .update row) row.kind := by
  refine ⟨Later.hold t _ _, fit.hold _ row_kind, .refl _, ?_⟩
  intro h mem
  rcases List.mem_cons.mp mem with new | old
  · rw [new]
    exact Or.inr rfl
  · exact Or.inl old

/-- The customer's account in a currency. -/
structure CustomerAccount (v : Books) (customer : Id) (currency : String) (account : Id × Account) :
    Prop where
  live : v.accountOf customer currency = some account
  found : v.accounts.get? account.1 = some account.2
  party : account.2.party = .customer customer
  currency : account.2.currency = currency

theorem CustomerAccount.of_live {v : Books} {customer : Id} {currency : String}
    {account : Id × Account} (keys : v.accounts.Distinct)
    (live : v.accountOf customer currency = some account) :
    CustomerAccount v customer currency account := by
  have matching := List.find?_some live
  rw [decide_eq_true_eq] at matching
  exact ⟨live, Rows.get?_of_mem keys (List.mem_of_find?_eq_some live), matching.1, matching.2⟩

theorem grows_addAccount {v : Books} {id customer : Id} {account : Account}
    (unused : v.accounts.get? id = none) (party : account.party = .customer customer)
    (none : v.accountOf customer account.currency = none) : Grows v (v.addAccount id account) where
  movements := rfl
  documents := rfl
  invoices := rfl
  applications := rfl
  accounts _ _ found := Rows.get?_insert_of_some found
  cashAccounts _ _ found := found
  live customer' currency r found := by
    rw [accountOf_addAccount, found]
    rfl
  single single := by
    intro k a customer' found party'
    have inserted := (Rows.get?_insert v.accounts id k account).symm.trans found
    rw [accountOf_addAccount]
    cases old : v.accounts.get? k with
    | some b =>
        rw [old] at inserted
        cases inserted
        rw [single k a customer' old party']
        rfl
    | none =>
        rw [old, Option.none_or] at inserted
        split at inserted
        · rename_i same
          cases inserted
          cases party.symm.trans party'
          rw [none, if_pos ⟨party, rfl⟩, same]
          rfl
        · cases inserted
  accountKeys keys := keys.insert unused
  cashAccountKeys keys := keys

theorem sound_accountForCustomer {firm customer : Id} {currency : String}
    {post : Books -> Id × Account -> Trail Books Row Note -> Prop} (fit : Fit s t)
    (below : Below t 3)
    (after : ∀ account t', Made s t t' 3 ->
      CustomerAccount (t'.writes s) customer currency account -> post s account t') :
    Sound convention (accountForCustomer firm customer currency) s t post := by
  unfold accountForCustomer
  simp only [Prog.bind_eq, Prog.pure_eq, sound_bind, sound_find, sound_done]
  refine ⟨?_, ?_⟩
  · intro account live
    refine ⟨?_, after account t (.nothing fit 3) (.of_live fit.sides.1 live)⟩
    intro v rely
    have always : Always (t.writes s) v := rely.always
    exact always.live _ _ _ live
  · simp only [sound_lock, sound_observe]
    have made : Made s t (t.hold .update (.accountKey customer currency)) 3 := .hold fit rfl
    refine ⟨Below.order below fit rfl, fun v rely => rely.rows _ List.mem_cons_self, ?_⟩
    cases live : (t.writes s).accountOf customer currency with
    | some account =>
        rw [Trail.hold_writes, live]
        exact after account _ made (.of_live fit.sides.1 live)
    | none =>
        rw [Trail.hold_writes, live]
        simp only [sound_bind, sound_fresh, sound_write, sound_done]
        intro id unused above
        have locked : ((t.hold .update (.accountKey customer currency)).draw id).Locked
            (.accountKey customer currency) := List.mem_cons_self
        have unusedHere := fit.fresh unused above
        have fit₁ := made.fit.draw id
        have confined : convention.Confined _ s (t.writes s) -> convention.Confined _ s
            ((t.writes s).addAccount id ⟨firm, .customer customer, currency⟩) :=
          confined_addAccount List.mem_cons_self rfl locked
        refine ⟨respects_addAccount List.mem_cons_self rfl locked, confined, ?_⟩
        apply after
        · refine ⟨⟨made.later.held, mem_draw, fun _ mem => mem, rfl⟩, ?_, ?_, made.bound⟩
          · exact fit₁.write (confined fit₁.confined) rfl fit.keys
              ⟨fit.sides.1.insert unusedHere.account, fit.sides.2⟩
          · exact grows_addAccount unusedHere.account rfl live
        · apply CustomerAccount.of_live
          · exact fit.sides.1.insert unusedHere.account
          · rw [Trail.write_writes, Trail.draw_writes, Trail.hold_writes, accountOf_addAccount, live,
              if_pos ⟨rfl, rfl⟩]
            rfl

theorem grows_addCashAccount {v : Books} {id : Id} {till : CashAccount}
    (unused : v.cashAccounts.get? id = none) : Grows v (v.addCashAccount id till) where
  movements := rfl
  documents := rfl
  invoices := rfl
  applications := rfl
  accounts _ _ found := found
  cashAccounts _ _ found := Rows.get?_insert_of_some found
  live _ _ _ found := found
  single single := single
  accountKeys keys := keys
  cashAccountKeys keys := keys.insert unused

theorem defaultTill_found {v : Books} {firm : Id} {till : Id × CashAccount}
    (keys : v.cashAccounts.Distinct) (live : v.defaultTill firm = some till) :
    v.cashAccounts.get? till.1 = some till.2 :=
  Rows.get?_of_mem keys (List.mem_of_find?_eq_some live)

theorem sound_createDefaultCashAccount {firm : Id}
    {post : Books -> Id × CashAccount -> Trail Books Row Note -> Prop} (fit : Fit s t)
    (below : Below t 2)
    (after : ∀ till t', Made s t t' 2 -> (t'.writes s).cashAccounts.get? till.1 = some till.2 ->
      post s till t') :
    Sound convention (createDefaultCashAccount firm) s t post := by
  unfold createDefaultCashAccount
  simp only [Prog.bind_eq, Prog.pure_eq, sound_bind, sound_find, sound_done]
  refine ⟨?_, ?_⟩
  · intro till live
    refine ⟨?_, after till t (.nothing fit 2) (defaultTill_found fit.sides.2 live)⟩
    intro v rely
    have always : Always (t.writes s) v := rely.always
    exact always.tills _ _ live
  · simp only [sound_lock, sound_observe]
    have made : Made s t (t.hold .update (.tillKey firm)) 2 := .hold fit rfl
    refine ⟨Below.order below fit rfl, fun v rely => rely.rows _ List.mem_cons_self, ?_⟩
    rw [Trail.hold_writes]
    cases (t.writes s).defaultTill firm with
    | some _ => trivial
    | none =>
        simp only [sound_bind, sound_fresh, sound_write, sound_done]
        intro id unused above
        have locked : ((t.hold .update (.tillKey firm)).draw id).Locked (.tillKey firm) :=
          List.mem_cons_self
        have unusedHere := fit.fresh unused above
        have fit₁ := made.fit.draw id
        have confined : convention.Confined _ s (t.writes s) -> convention.Confined _ s
            ((t.writes s).addCashAccount id ⟨firm, .default, defaultCurrency, true⟩) :=
          confined_addCashAccount List.mem_cons_self locked
        refine ⟨respects_addCashAccount List.mem_cons_self locked, confined, ?_⟩
        apply after
        · refine ⟨⟨made.later.held, mem_draw, fun _ mem => mem, rfl⟩, ?_, ?_, made.bound⟩
          · exact fit₁.write (confined fit₁.confined) rfl fit.keys
              ⟨fit.sides.1, fit.sides.2.insert unusedHere.cashAccount⟩
          · exact grows_addCashAccount unusedHere.cashAccount
        · exact Rows.get?_insert_self unusedHere.cashAccount

theorem sound_tillFor {draft : InvoiceDraft} {cashAccount : Option (Id × CashAccount)}
    {post : Books -> Id × CashAccount -> Trail Books Row Note -> Prop} (fit : Fit s t)
    (below : Below t 2)
    (named : ∀ till, cashAccount = some till ->
      (t.writes s).cashAccounts.get? till.1 = some till.2)
    (after : ∀ till t', Made s t t' 2 -> (t'.writes s).cashAccounts.get? till.1 = some till.2 ->
      post s till t') :
    Sound convention (tillFor draft cashAccount) s t post := by
  cases cashAccount with
  | some till => exact after till t (.nothing fit 2) (named till rfl)
  | none =>
      unfold tillFor defaultCashAccount
      simp only [Prog.bind_eq, Prog.pure_eq, sound_bind]
      apply sound_createDefaultCashAccount fit below
      intro till t' made found
      simp only [sound_require, sound_done]
      exact fun _ _ => after till t' made found

end Ledger
end Shiftlush
