import Shiftlush.Ledger.CarryOverSteps
import Shiftlush.Ledger.Transitions

namespace Shiftlush
namespace Ledger

open Transactions

/-!
# A draft carried over

What one transaction of the carry-over makes of the draft it is about, and what
it leaves of the others.
-/

/-! ## The debits of an invoice -/

namespace Books

/-- The movements an invoice has been posted by. -/
def invoiceDebits (v : Books) (id : Id) : Rows Movement :=
  v.movements.filter (fun r => decide (r.2.document = ⟨.invoiceDraft, id⟩ ∧ r.2.source = .invoice))

variable {v w : Books} {id : Id}

theorem invoicePosted_iff : v.invoicePosted id = true ↔ v.invoiceDebits id ≠ [] := by
  unfold invoicePosted invoiceDebits movementsOf
  rw [List.any_filter, List.any_eq_true]
  constructor
  · rintro ⟨r, mem, holds⟩ none'
    rw [List.filter_eq_nil_iff] at none'
    simp only [Bool.and_eq_true, decide_eq_true_eq] at holds
    exact none' r mem (decide_eq_true holds)
  · intro some'
    rcases List.exists_mem_of_ne_nil _ some' with ⟨r, mem⟩
    rcases List.mem_filter.mp mem with ⟨there, holds⟩
    refine ⟨r, there, ?_⟩
    simp only [Bool.and_eq_true, decide_eq_true_eq]
    exact of_decide_eq_true holds

theorem invoicePosted_false : v.invoicePosted id = false ↔ v.invoiceDebits id = [] := by
  rw [← Bool.not_eq_true, invoicePosted_iff, not_not]

theorem invoiceDebits_of_movements (same : w.movements = v.movements) :
    w.invoiceDebits id = v.invoiceDebits id := by
  unfold invoiceDebits
  rw [same]

theorem invoiceDebits_insert {key : Id} {m : Movement} (more : w.movements = v.movements.insert key m) :
    w.invoiceDebits id = if m.document = ⟨.invoiceDraft, id⟩ ∧ m.source = .invoice then
      (v.invoiceDebits id).insert key m else v.invoiceDebits id := by
  unfold invoiceDebits
  rw [more]
  unfold Rows.insert
  rw [List.filter_append, List.filter_singleton]
  split
  · rename_i holds
    rw [decide_eq_true holds]
    rfl
  · rename_i other
    rw [decide_eq_false other]
    exact List.append_nil _

/-- What decides whether a draft is selected. -/
theorem needsCarry_congr {draft : InvoiceDraft} (debits : w.invoiceDebits id = v.invoiceDebits id)
    (collected : w.invoiceCollected id = v.invoiceCollected id) :
    w.needsCarry id draft = v.needsCarry id draft := by
  have posted : w.invoicePosted id = v.invoicePosted id := by
    rw [Bool.eq_iff_iff, invoicePosted_iff, invoicePosted_iff, debits]
  unfold needsCarry invoiceRemaining
  rw [posted, collected]

end Books

/-! ## The books between two transactions -/

/-- No key from the next one on is in use, and no invoice has two debits. -/
structure Ready (v : Books) (next : Nat) : Prop where
  distinct : v.invoices.Distinct
  invoices : v.invoices.Below next
  documents : v.documents.Below next
  applied : ∀ r ∈ v.applications, r.2.collection < next
  once : ∀ id, (v.invoiceDebits id).length ≤ 1
  debits : ∀ id, ∀ r ∈ v.invoiceDebits id, ∃ account, r.2.account = some (account, .debit)

/-- What the transaction of a draft brings about. -/
structure Carried (v v' : Books) (id : Id) (draft : InvoiceDraft) (posted collected : Bool) : Prop where
  posted_iff : posted = true ↔ draft.standing = true ∧ v.invoiceDebits id = [] ∧ draft.total ≠ 0
  debit : posted = true -> ∃ key m, IsDebit id draft m ∧ v'.invoiceDebits id = [(key, m)]
  noDebit : posted = false -> v'.invoiceDebits id = v.invoiceDebits id
  collected_iff : collected = true ↔
    draft.standing = true ∧ draft.status = .paid ∧ 0 < v.invoiceRemaining id draft
  /-- One collection, of what remained. -/
  collection : collected = true -> ∃ key d key' company, d.standing = true ∧ d.body.type = .collection ∧
    d.amount = v.invoiceRemaining id draft ∧ v'.documents = v.documents.insert key d ∧
      v'.applications =
        v.applications.insert key' ⟨company, key, id, v.invoiceRemaining id draft⟩ ∧
          v'.invoiceRemaining id draft = 0
  noCollection : collected = false -> v'.documents = v.documents ∧ v'.applications = v.applications
  /-- The draft is what it was but for its status, and need not be carried again. -/
  invoice : ∃ settlement, v'.invoices.get? id = some (draft.settle settlement) ∧
    v'.needsCarry id (draft.settle settlement) = false
  others : ∀ id', id' ≠ id -> v'.invoices.get? id' = v.invoices.get? id' ∧
    v'.invoiceDebits id' = v.invoiceDebits id' ∧ v'.invoiceCollected id' = v.invoiceCollected id'

/-! ## Stage by stage -/

/-- After `post_invoice`. -/
structure Debited (v w : Books) (id : Id) (draft : InvoiceDraft) (posted : Bool) : Prop where
  rest : w.tables = { v.tables with movements := w.movements }
  posted_iff : posted = true ↔ v.invoiceDebits id = [] ∧ draft.total ≠ 0
  debit : posted = true -> ∃ key m, IsDebit id draft m ∧ w.movements = v.movements.insert key m
  noDebit : posted = false -> w.movements = v.movements

namespace Debited

variable {v w : Books} {id : Id} {draft : InvoiceDraft} {posted : Bool}

theorem invoices (debited : Debited v w id draft posted) : w.invoices = v.invoices :=
  congrArg Tables.invoices debited.rest

theorem documents (debited : Debited v w id draft posted) : w.documents = v.documents :=
  congrArg Tables.documents debited.rest

theorem applications (debited : Debited v w id draft posted) : w.applications = v.applications :=
  congrArg Tables.applications debited.rest

end Debited

theorem invoiceCollected_of_tables {v w : Books} (documents : w.documents = v.documents)
    (applications : w.applications = v.applications) (id : Id) :
    w.invoiceCollected id = v.invoiceCollected id := by
  unfold Books.invoiceCollected Books.applicationsOn Books.stands
  rw [documents, applications]

theorem invoiceRemaining_of_tables {v w : Books} (same : w.tables = v.tables) {id : Id} {draft : InvoiceDraft} :
    w.invoiceRemaining id draft = v.invoiceRemaining id draft := by
  unfold Books.invoiceRemaining
  rw [invoiceCollected_of_tables (congrArg Tables.documents same) (congrArg Tables.applications same)]

theorem Collects.of_tables {v view w : Books} {next next' : Nat} {id key : Id} {amount : Cents} {d : Document}
    (collects : Collects v w next' id amount key d) (same : v.tables = view.tables) (le : next ≤ next') :
    Collects view w next id amount key d := by
  have documents : v.documents = view.documents := congrArg Tables.documents same
  have applications : v.applications = view.applications := congrArg Tables.applications same
  have movements : v.movements = view.movements := congrArg Tables.movements same
  refine ⟨Nat.le_trans le collects.fresh, collects.standing, collects.sum, collects.isCollection, ?_, ?_, ?_⟩
  · rw [collects.documents, documents]
  · rw [← applications]
    exact collects.applications
  · rw [← movements]
    exact collects.movements

/-- After the collection, with the status it was synced to. -/
inductive Paid (w x : Books) (next next' : Nat) (id : Id) (draft : InvoiceDraft) : Bool -> Prop
  | nothing : ¬ (draft.status = .paid ∧ 0 < w.invoiceRemaining id draft) -> x.tables = w.tables ->
      Paid w x next next' id draft false
  | collected {u key d} : draft.status = .paid -> 0 < w.invoiceRemaining id draft ->
      Collects w u next id (w.invoiceRemaining id draft) key d -> key < next' ->
        u.invoices = w.invoices -> Settled u x id draft -> Paid w x next next' id draft true

variable {s view : Books} {next : Nat}

theorem yields_collectPaid {id : Id} {draft : InvoiceDraft} {today : Date}
    {post : Bool -> Books -> Nat -> Prop} (found : view.invoices.get? id = some draft)
    (dated : draft.invoiceDate.isSome = true)
    (holds : ∀ collected x n, next ≤ n -> Paid view x next n id draft collected -> post collected x n) :
    Yields s (collectPaid id draft today) post view next := by
  unfold collectPaid
  cases day : draft.paidOn.or draft.invoiceDate with
  | none =>
      rcases Option.isSome_iff_exists.mp dated with ⟨date, same⟩
      rw [same] at day
      cases Option.or_eq_none_iff.mp day |>.2
  | some paidOn =>
      refine Yields.bind (yields_observe ?_)
      split
      · rename_i owes
        refine Yields.bind (yields_carriedOverCashAccount ?_)
        intro till v n same le
        unfold collectInvoice
        have named : Still (tillFor draft (some till)) := fun _ _ _ => yields_done ⟨rfl, rfl⟩
        refine Yields.bind (named.bind ?_)
        intro till
        refine Yields.bind (yields_observe ?_)
        rw [invoiceRemaining_of_tables same]
        refine Yields.bind (yields_accountForCustomer ?_)
        intro account w m same' le'
        have tables : w.tables = view.tables := same'.trans same
        have invoices : w.invoices = view.invoices := congrArg Tables.invoices tables
        have found' : w.invoices.get? id = some draft := by rw [invoices, found]
        refine yields_recordCollection found' ?_
        intro written key d u x k collects invoices' settled below
        have collects' := collects.of_tables tables (Nat.le_trans le le')
        have le'' : next ≤ k := Nat.le_trans collects'.fresh (Nat.le_of_lt below)
        exact yields_done (holds true x k le''
          (.collected owes.1 owes.2 collects' below (invoices'.trans invoices) settled))
      · rename_i nothing
        exact yields_done (holds false view next (Nat.le_refl next) (.nothing nothing rfl))

theorem settlement_payable' (v : Books) (id : Id) (draft : InvoiceDraft) :
    (v.settlement id draft).1.payable = true := by
  rcases settlement_payable v id draft with paid | issued
  · rw [paid]
    rfl
  · rw [issued]
    rfl

theorem standing_settle {draft : InvoiceDraft} (settlement : InvoiceStatus × Option Date) (standing : draft.standing = true)
    (payable : settlement.1.payable = true) : (draft.settle settlement).standing = true := by
  unfold InvoiceDraft.standing at standing ⊢
  rw [Bool.and_eq_true] at standing
  unfold InvoiceDraft.settle
  dsimp only
  rw [payable, standing.2]
  rfl

/-- The draft between the two syncs. -/
theorem Paid.row {w x : Books} {next next' : Nat} {id : Id} {draft : InvoiceDraft} {collected : Bool}
    (paid : Paid w x next next' id draft collected) (found : w.invoices.get? id = some draft)
    (standing : draft.standing = true) :
    ∃ settlement, x.invoices.get? id = some (draft.settle settlement) ∧
      (draft.settle settlement).standing = true := by
  cases paid with
  | nothing _ same =>
      have self : draft.settle (draft.status, draft.paidOn) = draft := settle_self rfl
      have invoices : x.invoices = w.invoices := congrArg Tables.invoices same
      refine ⟨(draft.status, draft.paidOn), ?_⟩
      rw [invoices, found, self]
      exact ⟨rfl, standing⟩
  | @collected u key d _ _ _ _ _ settled =>
      refine ⟨u.settlement id draft, ?_, standing_settle _ standing (settlement_payable' u id draft)⟩
      rw [settled.own, if_pos standing]

theorem yields_debited {id : Id} {draft : InvoiceDraft} (found : view.invoices.get? id = some draft)
    (day : Option Date) : Yields s (postInvoiceOn id day) (fun written w m => ∃ posted,
      (!written.isEmpty) = posted ∧ next ≤ m ∧ draft.invoiceDate.isSome = true ∧
        Debited view w id draft posted) view next := by
  refine yields_postInvoiceOn found ?_ ?_
  · intro done dated
    refine ⟨false, rfl, Nat.le_refl next, dated, ⟨rfl, ?_, (fun no => by cases no), fun _ => rfl⟩⟩
    constructor
    · intro no
      cases no
    · rintro ⟨unposted, nonzero⟩
      rcases done with posted | zero
      · exact absurd unposted (Books.invoicePosted_iff.mp posted)
      · exact absurd zero nonzero
  · intro key m v n unposted nonzero dated debit le below tables
    have movements : v.movements = view.movements.insert key m := congrArg Tables.movements tables
    refine ⟨true, rfl, Nat.le_trans le (Nat.le_of_lt below), dated, ⟨?_, ?_, ?_, ?_⟩⟩
    · rw [tables, movements]
    · exact ⟨fun _ => ⟨Books.invoicePosted_false.mp unposted, nonzero⟩, fun _ => rfl⟩
    · exact fun _ => ⟨key, m, debit, movements⟩
    · intro no
      cases no

/-- The three stages of a standing draft. -/
theorem yields_carryOverDraft {id : Id} {draft : InvoiceDraft} {post : Bool × Bool -> Books -> Nat -> Prop}
    (found : view.invoices.get? id = some draft)
    (other : draft.standing = false -> post (false, false) view next)
    (stages : ∀ posted collected w x v m n settlement, draft.standing = true -> next ≤ m -> m ≤ n ->
      Debited view w id draft posted -> Paid w x m n id draft collected ->
        (draft.settle settlement).standing = true -> Settled x v id (draft.settle settlement) ->
          post (posted, collected) v n) :
    Yields s (carryOverDraft id) post view next := by
  unfold carryOverDraft
  refine Yields.bind (yields_lockInvoice ?_)
  intro locked here
  rw [found] at here
  cases here
  split
  · rename_i standing
    refine Yields.bind (yields_peek ?_)
    refine Yields.bind ((yields_debited found _).mono ?_)
    rintro written w m _ ⟨posted, same, le, dated, debited⟩
    have found' : w.invoices.get? id = some draft := by rw [debited.invoices, found]
    refine Yields.bind (yields_collectPaid found' dated ?_)
    intro collected x n le' paid
    rcases paid.row found' standing with ⟨settlement, row, standing'⟩
    refine Yields.bind (yields_syncInvoiceStatus row ?_)
    intro v settled
    rw [same]
    exact yields_done (stages posted collected w x v m n settlement standing le le' debited paid standing'
      settled)
  · rename_i notStanding
    exact yields_done (other (Bool.not_eq_true _ ▸ notStanding))

/-! ## What the stages leave -/

section Stages

variable {v w x y : Books} {next next' : Nat} {id key : Id} {draft : InvoiceDraft} {collected : Bool}

namespace Settled

theorem documents (settled : Settled x y id draft) : y.documents = x.documents :=
  congrArg Tables.documents settled.rest

theorem applications (settled : Settled x y id draft) : y.applications = x.applications :=
  congrArg Tables.applications settled.rest

theorem debits (settled : Settled x y id draft) (id' : Id) : y.invoiceDebits id' = x.invoiceDebits id' :=
  Books.invoiceDebits_of_movements (congrArg Tables.movements settled.rest)

theorem invoiceCollected (settled : Settled x y id draft) (id' : Id) :
    y.invoiceCollected id' = x.invoiceCollected id' :=
  invoiceCollected_of_tables settled.documents settled.applications id'

end Settled

/-- A collection is of no invoice's debits. -/
theorem Collects.debits {amount : Cents} {d : Document} (collects : Collects w x next id amount key d)
    (id' : Id) : x.invoiceDebits id' = w.invoiceDebits id' := by
  rcases collects.movements with ⟨key', m, more, source⟩
  rw [Books.invoiceDebits_insert more, if_neg]
  rintro ⟨_, invoice⟩
  rw [source] at invoice
  cases invoice

/-- What is applied counts for the invoice, and for no other. -/
theorem Collects.invoiceCollected {amount : Cents} {d : Document} (collects : Collects w x next id amount key d)
    (documents : w.documents.Below next) (applied : ∀ r ∈ w.applications, r.2.collection < next) (id' : Id) :
    x.invoiceCollected id' = w.invoiceCollected id' + if id' = id then amount else 0 := by
  rcases collects.applications with ⟨key', company, more⟩
  have absent : w.documents.get? key = none := documents.absent collects.fresh
  have stands (r : Id × CollectionApplication) (mem : r ∈ w.applications) :
      x.stands r.2.collection = w.stands r.2.collection := by
    unfold Books.stands
    have other : key ≠ r.2.collection := Nat.ne_of_gt (Nat.lt_of_lt_of_le (applied r mem) collects.fresh)
    rw [collects.documents, Rows.get?_insert_of_ne other]
  have standing : x.stands key = true := by
    unfold Books.stands
    rw [collects.documents, Rows.get?_insert_self absent]
    exact collects.standing
  unfold Books.invoiceCollected Books.applicationsOn
  rw [more]
  unfold Rows.insert
  rw [List.filter_append, Rows.total_append, List.filter_singleton]
  congr 1
  · apply Rows.total_congr
    intro r mem
    rw [stands r (List.mem_of_mem_filter mem)]
  · dsimp only
    by_cases here : id' = id
    · rw [if_pos here, here, decide_eq_true rfl]
      simp [standing]
    · have other : ¬ id = id' := fun same => here same.symm
      rw [if_neg here, decide_eq_false other]
      rfl

namespace Paid

theorem debits (paid : Paid w x next next' id draft collected) (id' : Id) :
    x.invoiceDebits id' = w.invoiceDebits id' := by
  cases paid with
  | nothing _ same => exact Books.invoiceDebits_of_movements (congrArg Tables.movements same)
  | collected _ _ collects _ _ settled => exact (settled.debits id').trans (collects.debits id')

theorem others (paid : Paid w x next next' id draft collected) {id' : Id} (other : id' ≠ id) :
    x.invoices.get? id' = w.invoices.get? id' := by
  cases paid with
  | nothing _ same => exact congrArg (fun t : Tables => t.invoices.get? id') same
  | collected _ _ _ _ invoices settled => rw [settled.others id' other, invoices]

theorem keys (paid : Paid w x next next' id draft collected) :
    x.invoices.map Prod.fst = w.invoices.map Prod.fst := by
  cases paid with
  | nothing _ same => exact congrArg (fun t : Tables => t.invoices.map Prod.fst) same
  | collected _ _ _ _ invoices settled => rw [settled.keys, invoices]

theorem invoiceCollected (paid : Paid w x next next' id draft collected) (documents : w.documents.Below next)
    (applied : ∀ r ∈ w.applications, r.2.collection < next) (id' : Id) :
    x.invoiceCollected id' = w.invoiceCollected id' +
      if id' = id ∧ collected = true then w.invoiceRemaining id draft else 0 := by
  cases paid with
  | nothing _ same =>
      rw [invoiceCollected_of_tables (congrArg Tables.documents same) (congrArg Tables.applications same)]
      simp
  | collected _ _ collects _ _ settled =>
      rw [settled.invoiceCollected, collects.invoiceCollected documents applied]
      simp

theorem documentsBelow (paid : Paid w x next next' id draft collected) (le : next ≤ next')
    (documents : w.documents.Below next) : x.documents.Below next' := by
  cases paid with
  | nothing _ same =>
      rw [show x.documents = w.documents from congrArg Tables.documents same]
      exact documents.mono le
  | @collected u key d _ _ collects below _ settled =>
      rw [settled.documents, collects.documents]
      intro id' here
      by_cases last : key = id'
      · exact last ▸ below
      · rw [Rows.get?_insert_of_ne last] at here
        exact Nat.lt_of_lt_of_le (documents id' here) le

theorem applied (paid : Paid w x next next' id draft collected) (le : next ≤ next')
    (applied : ∀ r ∈ w.applications, r.2.collection < next) : ∀ r ∈ x.applications, r.2.collection < next' := by
  cases paid with
  | nothing _ same =>
      rw [show x.applications = w.applications from congrArg Tables.applications same]
      exact fun r mem => Nat.lt_of_lt_of_le (applied r mem) le
  | @collected u key d _ _ collects below _ settled =>
      rcases collects.applications with ⟨key', company, more⟩
      rw [settled.applications, more]
      intro r mem
      rcases List.mem_append.mp mem with old | new
      · exact Nat.lt_of_lt_of_le (applied r old) le
      · rw [List.mem_singleton.mp new]
        exact below

end Paid

/-- A settled draft is not selected again. -/
theorem Settled.done (settled : Settled x y id draft) (posted : draft.total ≠ 0 -> x.invoiceDebits id ≠ []) :
    y.needsCarry id (draft.settle (x.settlement id draft)) = false := by
  have debits := settled.debits id
  have collected := settled.invoiceCollected id
  have remaining : y.invoiceRemaining id (draft.settle (x.settlement id draft)) = x.invoiceRemaining id draft := by
    unfold Books.invoiceRemaining
    rw [collected]
    rfl
  unfold Books.needsCarry
  rw [remaining]
  by_cases zero : draft.total = 0
  · have paid : (draft.settle (x.settlement id draft)).status = .paid := by
      unfold InvoiceDraft.settle Books.settlement
      rw [if_pos zero]
    have total : (draft.settle (x.settlement id draft)).total = 0 := zero
    simp [paid, total]
  · have there : y.invoicePosted id = true := by
      rw [Books.invoicePosted_iff, debits]
      exact posted zero
    rw [there]
    by_cases owes : 0 < x.invoiceRemaining id draft
    · have issued : (draft.settle (x.settlement id draft)).status = .issued := by
        unfold InvoiceDraft.settle Books.settlement
        rw [if_neg zero, if_neg (Int.not_le.mpr owes)]
      simp [issued]
    · simp [owes]

end Stages

section Whole

variable {v w x y : Books} {next middle next' : Nat} {id : Id} {draft : InvoiceDraft}
  {posted collected : Bool} {settlement : InvoiceStatus × Option Date}

theorem Debited.debits (debited : Debited v w id draft posted) (id' : Id) :
    w.invoiceDebits id' = if id' = id ∧ posted = true then w.invoiceDebits id else v.invoiceDebits id' := by
  cases posted with
  | false =>
      rw [if_neg (fun both => by cases both.2)]
      exact Books.invoiceDebits_of_movements (debited.noDebit rfl)
  | true =>
      rcases debited.debit rfl with ⟨key, m, debit, more⟩
      by_cases here : id' = id
      · rw [if_pos ⟨here, rfl⟩, here]
      · rw [if_neg (fun both => here both.1), Books.invoiceDebits_insert more, if_neg]
        rintro ⟨document, _⟩
        rw [debit.document] at document
        exact here (congrArg DocumentRef.id document).symm

theorem Debited.own (debited : Debited v w id draft posted) (already : posted = true) :
    ∃ key m, IsDebit id draft m ∧ w.invoiceDebits id = [(key, m)] := by
  rcases debited.debit already with ⟨key, m, debit, more⟩
  refine ⟨key, m, debit, ?_⟩
  rw [Books.invoiceDebits_insert more, if_pos ⟨debit.document, debit.source⟩,
    (debited.posted_iff.mp already).1]
  rfl

theorem remaining_of_debited (debited : Debited v w id draft posted) (draft' : InvoiceDraft) :
    w.invoiceRemaining id draft' = v.invoiceRemaining id draft' := by
  unfold Books.invoiceRemaining
  rw [invoiceCollected_of_tables debited.documents debited.applications]

/-- The stages of a standing draft, together. -/
theorem carried_of_stages (ready : Ready v next) (found : v.invoices.get? id = some draft)
    (standing : draft.standing = true) (le : next ≤ middle) (le' : middle ≤ next')
    (debited : Debited v w id draft posted) (paid : Paid w x middle next' id draft collected)
    (standing' : (draft.settle settlement).standing = true) (settled : Settled x y id (draft.settle settlement)) :
    Carried v y id draft posted collected ∧ Ready y next' := by
  have documents : w.documents.Below middle := by
    rw [debited.documents]
    exact ready.documents.mono le
  have applied : ∀ r ∈ w.applications, r.2.collection < middle := by
    rw [debited.applications]
    exact fun r mem => Nat.lt_of_lt_of_le (ready.applied r mem) le
  have debits (id' : Id) : y.invoiceDebits id' = w.invoiceDebits id' := (settled.debits id').trans (paid.debits id')
  have remaining := remaining_of_debited debited draft
  have before (id' : Id) : w.invoiceCollected id' = v.invoiceCollected id' :=
    invoiceCollected_of_tables debited.documents debited.applications id'
  have collectedNow (id' : Id) : y.invoiceCollected id' = v.invoiceCollected id' +
      if id' = id ∧ collected = true then v.invoiceRemaining id draft else 0 := by
    rw [settled.invoiceCollected, paid.invoiceCollected documents applied, before, remaining]
  have nonzero (unposted : draft.total ≠ 0) : w.invoiceDebits id ≠ [] := by
    cases posted with
    | true =>
        rcases debited.own rfl with ⟨key, m, _, one⟩
        rw [one]
        exact List.cons_ne_nil _ _
    | false =>
        intro none'
        have same : v.invoiceDebits id = [] :=
          (Books.invoiceDebits_of_movements (debited.noDebit rfl)).symm.trans none'
        exact absurd (debited.posted_iff.mpr ⟨same, unposted⟩) (by simp)
  refine ⟨⟨?_, ?_, ?_, ?_, ?_, ?_, ?_, ?_⟩, ⟨?_, ?_, ?_, ?_, ?_, ?_⟩⟩
  · rw [debited.posted_iff]
    simp [standing]
  · intro yes
    rcases debited.own yes with ⟨key, m, debit, one⟩
    exact ⟨key, m, debit, (debits id).trans one⟩
  · intro no
    rw [debits id]
    exact Books.invoiceDebits_of_movements (debited.noDebit no)
  · rw [← remaining]
    cases paid with
    | nothing nothing same =>
        constructor
        · intro no
          cases no
        · rintro ⟨_, owes⟩
          exact absurd owes nothing
    | collected status owes collects below invoices settled' =>
        exact ⟨fun _ => ⟨standing, status, owes⟩, fun _ => rfl⟩
  · intro yes
    cases paid with
    | nothing nothing same => cases yes
    | @collected u key d status owes collects below invoices settled' =>
        rcases collects.applications with ⟨key', company, more⟩
        refine ⟨key, d, key', company, collects.standing, collects.isCollection, ?_, ?_, ?_, ?_⟩
        · rw [collects.sum, remaining]
        · rw [settled.documents, settled'.documents, collects.documents, debited.documents]
        · rw [settled.applications, settled'.applications, more, debited.applications, remaining]
        · have now' := collectedNow id
          rw [if_pos ⟨rfl, rfl⟩] at now'
          unfold Books.invoiceRemaining at now' ⊢
          rw [now', Int.add_comm, Int.sub_add_cancel, Int.sub_self]
  · intro no
    cases paid with
    | nothing nothing same =>
        have documents' : x.documents = w.documents := congrArg Tables.documents same
        have applications' : x.applications = w.applications := congrArg Tables.applications same
        exact ⟨by rw [settled.documents, documents', debited.documents],
          by rw [settled.applications, applications', debited.applications]⟩
    | collected => cases no
  · refine ⟨x.settlement id (draft.settle settlement), ?_, ?_⟩
    · rw [settled.own, if_pos standing']
      rfl
    · refine settled.done ?_
      intro total
      rw [paid.debits id]
      exact nonzero total
  · intro id' other
    refine ⟨?_, ?_, ?_⟩
    · rw [settled.others id' other, paid.others other, debited.invoices]
    · rw [debits id', debited.debits id', if_neg (fun both => other both.1)]
    · rw [collectedNow id', if_neg (fun both => other both.1), Int.add_zero]
  · unfold Rows.Distinct
    rw [settled.keys, paid.keys, debited.invoices]
    exact ready.distinct
  · intro id' here
    by_cases own : id' = id
    · have there : (v.invoices.get? id').isSome = true := by rw [own, found, Option.isSome_some]
      exact Nat.lt_of_lt_of_le (ready.invoices id' there) (Nat.le_trans le le')
    · rw [settled.others id' own, paid.others own, debited.invoices] at here
      exact Nat.lt_of_lt_of_le (ready.invoices id' here) (Nat.le_trans le le')
  · rw [settled.documents]
    exact paid.documentsBelow le' documents
  · rw [settled.applications]
    exact paid.applied le' applied
  · intro id'
    rw [debits id', debited.debits id']
    split
    · rename_i own
      rcases debited.own own.2 with ⟨key, m, _, one⟩
      rw [one]
      exact Nat.le_refl 1
    · exact ready.once id'
  · intro id' r mem
    rw [debits id', debited.debits id'] at mem
    split at mem
    · rename_i own
      rcases debited.own own.2 with ⟨key, m, debit, one⟩
      rw [one, List.mem_singleton] at mem
      rw [mem]
      exact debit.account
    · exact ready.debits id' r mem

/-- A draft that is not standing is left alone. -/
theorem carried_nothing (found : v.invoices.get? id = some draft) (other : draft.standing = false) :
    Carried v v id draft false false where
  posted_iff := by simp [other]
  debit := fun no => by cases no
  noDebit := fun _ => rfl
  collected_iff := by simp [other]
  collection := fun no => by cases no
  noCollection := fun _ => ⟨rfl, rfl⟩
  invoice := by
    refine ⟨(draft.status, draft.paidOn), ?_, ?_⟩
    · rw [settle_self rfl, found]
    · rw [settle_self rfl]
      unfold Books.needsCarry
      rw [other, Bool.false_and]
  others := fun _ _ => ⟨rfl, rfl, rfl⟩

/-- What a transaction that succeeds leaves. -/
theorem carryOverDraft_carries (ready : Ready v next) {answer : Bool × Bool} {keys : Nat -> Nat}
    (ends : (carryOverDraft id).alone v v (fun k => next + k) = .ok (answer, y, keys)) :
    ∃ draft, v.invoices.get? id = some draft ∧ Carried v y id draft answer.1 answer.2 ∧ Ready y (keys 0) := by
  have yields : Yields v (carryOverDraft id) (fun answer y n => ∃ draft, v.invoices.get? id = some draft ∧
      Carried v y id draft answer.1 answer.2 ∧ Ready y n) v next := by
    cases found : v.invoices.get? id with
    | none =>
        unfold carryOverDraft lockInvoice
        refine Yields.bind (Yields.bind (yields_lock (yields_fetch ?_)))
        intro draft here
        rw [found] at here
        cases here
    | some draft =>
        refine yields_carryOverDraft found ?_ ?_
        · intro other
          exact ⟨draft, rfl, carried_nothing found other, ready⟩
        · intro posted collected w x y m n settlement standing le le' debited paid standing' settled
          exact ⟨draft, rfl, carried_of_stages ready found standing le le' debited paid standing' settled⟩
  rcases yields answer y keys ends with ⟨next', drawn, _, draft, found, carried, ready'⟩
  rw [drawn]
  exact ⟨draft, found, carried, ready'⟩

end Whole

end Ledger
end Shiftlush
