import Shiftlush.Ledger.Steps

namespace Shiftlush
namespace Ledger

/-!
# Entering, applying, reversing, issuing

The five changes that concern money, each with what the code has checked by the
time it makes it.
-/

namespace Books

/-- A document and its movements. -/
def enter (id : Id) (document : Document) (rows : Rows Movement) (v : Books) : Books :=
  { v with documents := v.documents.insert id document, movements := v.movements ++ rows }

def addApplications (rows : Rows CollectionApplication) (v : Books) : Books :=
  { v with applications := v.applications ++ rows }

/-- A document cancelled, with its mirrors. -/
def reverse (id : Id) (day : Date) (rows : Rows Movement) (v : Books) : Books :=
  { v with
    documents := v.documents.update id (·.cancelledOn day)
    movements := v.movements ++ rows }

/-- An invoice issued or cancelled, with the movements that go with it. -/
def change (id : Id) (f : InvoiceDraft -> InvoiceDraft) (rows : Rows Movement) (v : Books) : Books :=
  { v with invoices := v.invoices.update id f, movements := v.movements ++ rows }

end Books

/-! ## A document entered -/

/-- What has been checked by the time a document is in the books. -/
structure Enterable (v : Books) (id : Id) (d : Document) (rows : Rows Movement) : Prop where
  new : v.documents.get? id = none
  unnamed : v.movementsOf (d.ref id) = []
  unapplied : v.applicationsOf id = []
  standing : d.standing = true
  positive : 0 < d.amount
  originals : Originals (d.voucher id) rows
  fresh : ∀ r ∈ rows, v.movements.get? r.1 = none
  currencies : ∀ r ∈ rows, InOwnCurrency v r.2
  /-- An opening is the first on its side, and comes before everything on it. -/
  first : ∀ side, d.openingSide? = some side ->
    v.standingOpenings side = [] ∧ ∀ r ∈ v.unreversedOn side, d.date ≤ r.2.date
  after : ∀ r ∈ rows, ∀ side, r.2.on side = true -> ∀ o ∈ v.standingOpenings side,
    o.2.date ≤ d.date

namespace Enterable

variable {v : Books} {id : Id} {d : Document} {rows : Rows Movement}

theorem originals_document {w : Voucher} (originals : Originals w rows) :
    ∀ r ∈ rows, r.2.document = w.document := by
  intro r mem
  rcases originals.of_mem mem with ⟨_, _, _, _, same⟩
  rw [same]
  rfl

theorem originals_keys {w : Voucher} (originals : Originals w rows) : Rows.Distinct rows :=
  originals.keys.imp (fun lt => Nat.ne_of_lt lt)

theorem posts (enterable : Enterable v id d rows) : Posts v (v.enter id d rows) (d.ref id) rows :=
  ⟨rfl, originals_document enterable.originals, originals_keys enterable.originals,
    enterable.fresh⟩

theorem found (enterable : Enterable v id d rows) :
    (v.enter id d rows).documents.get? id = some d :=
  Rows.get?_insert_self enterable.new

theorem still (_ : Enterable v id d rows) {id' : Id} {d' : Document}
    (found : v.documents.get? id' = some d') :
    (v.enter id d rows).documents.get? id' = some d' :=
  Rows.get?_insert_of_some found

theorem stands (enterable : Enterable v id d rows) (sound : SoundBooks v)
    {r : Id × CollectionApplication} (mem : r ∈ v.applications) :
    (v.enter id d rows).stands r.2.collection = v.stands r.2.collection := by
  rcases sound.collection_there mem with ⟨d', found⟩
  unfold Books.stands
  rw [enterable.still found, found]

theorem collected (enterable : Enterable v id d rows) (sound : SoundBooks v) (invoice : Id) :
    (v.enter id d rows).invoiceCollected invoice = v.invoiceCollected invoice :=
  invoiceCollected_congr (v := v) rfl
    (fun _ mem => enterable.stands sound (List.mem_of_mem_filter mem))

theorem standingOpenings (_ : Enterable v id d rows) (side : Side) :
    (v.enter id d rows).standingOpenings side =
      v.standingOpenings side ++
        (if d.openingSide? = some side ∧ d.standing = true then [(id, d)] else []) := by
  unfold Books.standingOpenings Books.enter Rows.insert
  rw [List.filter_append]
  by_cases here : d.openingSide? = some side ∧ d.standing = true
  · rw [if_pos here, List.filter_cons_of_pos (by simp [here.1, here.2]), List.filter_nil]
  · rw [if_neg here, List.filter_cons_of_neg (by simpa using here), List.filter_nil]

end Enterable

theorem SoundBooks.enter {v : Books} (sound : SoundBooks v) {id : Id} {d : Document}
    {rows : Rows Movement} (enterable : Enterable v id d rows) :
    SoundBooks (v.enter id d rows) := by
  have posts := enterable.posts
  have invoiceOther : ∀ i, invoiceRef i ≠ d.ref id := by
    intro i same
    exact d.body.type_ne_invoice (congrArg DocumentRef.type same).symm
  have bodies : ∀ id' d', v.documents.get? id' = some d' ->
      ∃ d'', (v.enter id d rows).documents.get? id' = some d'' ∧ d''.body = d'.body :=
    fun _ d' found => ⟨d', enterable.still found, rfl⟩
  refine
    { movementKeys := posts.movementKeys sound.movementKeys
      documentKeys := sound.documentKeys.insert enterable.new
      invoiceKeys := sound.invoiceKeys
      accountKeys := sound.accountKeys
      cashAccountKeys := sound.cashAccountKeys
      documents := ?_
      invoices := fun i draft found => (sound.invoices i draft found).congr
        (posts.movementsOf_other (invoiceOther i)) (fun _ _ _ live => live)
      marked := sound.marked
      known := posts.known
        (fun r mem => (sound.known r mem).mono (fun _ i found => ⟨i, found⟩) bodies)
        (.document rfl enterable.found)
      currencies := posts.currencies
        (fun r mem => (sound.currencies r mem).mono (fun _ _ found => found)
          (fun _ _ found => found))
        (fun r mem => (enterable.currencies r mem).mono (fun _ _ found => found)
          (fun _ _ found => found))
      accounts := sound.accounts
      applied := fun r mem => (sound.applied r mem).mono bodies
        (fun _ i found => ⟨i, found, rfl, rfl, fun status => status⟩) (fun _ _ found => found)
      collected := ?_
      unpaid := ?_
      allocated := ?_
      openings := ?_
      openingFirst := ?_ }
  · intro id' d' found
    by_cases same : id' = id
    · rw [same] at found ⊢
      rw [enterable.found] at found
      cases found
      rw [enterable.standing]
      apply Entered.standing enterable.originals
      have rows_eq := posts.movementsOf_self
      rw [enterable.unnamed, List.nil_append] at rows_eq
      exact rows_eq
    · have old : v.documents.get? id' = some d' :=
        (Rows.get?_insert_of_ne (Ne.symm same)).symm.trans found
      apply (sound.documents id' d' old).congr
      apply posts.movementsOf_other
      intro refs
      exact same (congrArg DocumentRef.id refs)
  · intro i draft found standing
    rw [enterable.collected sound]
    exact sound.collected i draft found standing
  · intro i draft found standing r mem
    rw [enterable.stands sound (List.mem_of_mem_filter mem)]
    exact sound.unpaid i draft found standing r mem
  · intro id' d' found
    by_cases same : id' = id
    · rw [same] at found ⊢
      rw [enterable.found] at found
      cases found
      have none : (v.enter id d rows).allocated id = 0 := by
        have empty : (v.enter id d rows).applicationsOf id = [] := enterable.unapplied
        unfold Books.allocated
        rw [empty]
        rfl
      rw [none]
      exact Int.le_of_lt enterable.positive
    · exact sound.allocated id' d' ((Rows.get?_insert_of_ne (Ne.symm same)).symm.trans found)
  · intro side
    rw [enterable.standingOpenings]
    by_cases here : d.openingSide? = some side ∧ d.standing = true
    · rw [if_pos here, (enterable.first side here.1).1]
      exact Nat.le_refl 1
    · rw [if_neg here, List.append_nil]
      exact sound.openings side
  · intro side o at_o r at_r
    rw [enterable.standingOpenings] at at_o
    rcases List.mem_append.mp at_o with old | new
    · rcases posts.unreversedOn at_r with before | ⟨mem, on, _⟩
      · exact sound.openingFirst side o old r before
      · rw [enterable.originals.date mem]
        exact enterable.after r mem side on o old
    · split at new
      · rename_i here
        cases List.mem_singleton.mp new
        rcases posts.unreversedOn at_r with before | ⟨mem, _, _⟩
        · exact (enterable.first side here.1).2 r before
        · rw [enterable.originals.date mem]
          exact Int.le_refl _
      · cases new

/-! ## Applications added -/

/-- What `_apply` has checked of the applications it makes from a collection. -/
structure Applicable (v : Books) (collection : Id) (rows : Rows CollectionApplication) : Prop where
  source : ∃ d account row cashAccount number method, v.documents.get? collection = some d ∧
    d.standing = true ∧ d.body = .collection account cashAccount number method ∧
    v.accounts.get? account = some row ∧
    v.allocated collection + Rows.total rows (fun _ a => a.amount) ≤ d.amount ∧
    ∀ r ∈ rows, r.2.collection = collection ∧ 0 < r.2.amount ∧
      ∃ draft, v.invoices.get? r.2.invoice = some draft ∧ draft.standing = true ∧
        row.party = .customer draft.customer ∧ row.currency = draft.currency ∧
        r.2.amount ≤ v.invoiceRemaining r.2.invoice draft
  once : (rows.map (fun r => r.2.invoice)).Nodup

theorem standing_status {draft : InvoiceDraft} (standing : draft.standing = true) :
    draft.status ≠ .draft := by
  intro status
  unfold InvoiceDraft.standing at standing
  rw [status] at standing
  cases standing

namespace Applicable

variable {v : Books} {collection : Id} {rows : Rows CollectionApplication}

theorem applicationsOn (v : Books) (rows : Rows CollectionApplication) (invoice : Id) :
    (v.addApplications rows).applicationsOn invoice =
      v.applicationsOn invoice ++ rows.filter (fun r => r.2.invoice = invoice) :=
  List.filter_append ..

theorem applicationsOf (v : Books) (rows : Rows CollectionApplication) (id : Id) :
    (v.addApplications rows).applicationsOf id =
      v.applicationsOf id ++ rows.filter (fun r => r.2.collection = id) :=
  List.filter_append ..

theorem collected (v : Books) (rows : Rows CollectionApplication) (invoice : Id) :
    (v.addApplications rows).invoiceCollected invoice = v.invoiceCollected invoice +
      Rows.total (rows.filter (fun r => r.2.invoice = invoice))
        (fun _ a => if v.stands a.collection then a.amount else 0) := by
  unfold Books.invoiceCollected
  rw [applicationsOn, Rows.total_append]
  rfl

/-- The applications on one invoice: none, or one. -/
theorem filter_invoice (once : (rows.map (fun r => r.2.invoice)).Nodup) (invoice : Id) :
    rows.filter (fun r => r.2.invoice = invoice) = [] ∨
      ∃ r ∈ rows, r.2.invoice = invoice ∧ rows.filter (fun r => r.2.invoice = invoice) = [r] := by
  induction rows with
  | nil => exact Or.inl rfl
  | cons r rows ih =>
      have parts := List.nodup_cons.mp once
      by_cases here : r.2.invoice = invoice
      · right
        have others : rows.filter (fun r => r.2.invoice = invoice) = [] := by
          apply List.filter_eq_nil_iff.mpr
          intro r' mem same
          have listed := List.mem_map_of_mem (f := fun r => r.2.invoice) mem
          rw [of_decide_eq_true same, ← here] at listed
          exact parts.1 listed
        refine ⟨r, List.mem_cons_self, here, ?_⟩
        rw [List.filter_cons_of_pos (by simpa using here), others]
      · rw [List.filter_cons_of_neg (by simpa using here)]
        rcases ih parts.2 with none | ⟨r', mem, at_invoice, one⟩
        · exact Or.inl none
        · exact Or.inr ⟨r', List.mem_cons_of_mem _ mem, at_invoice, one⟩

/-- An invoice no application is added to. -/
theorem collected_other {invoice : Id} (other : invoice ∉ rows.map (fun r => r.2.invoice)) :
    (v.addApplications rows).invoiceCollected invoice = v.invoiceCollected invoice := by
  have none : rows.filter (fun r => r.2.invoice = invoice) = [] := by
    apply List.filter_eq_nil_iff.mpr
    intro r mem same
    apply other
    rw [← of_decide_eq_true same]
    exact List.mem_map_of_mem (f := fun r => r.2.invoice) mem
  rw [collected, none]
  exact Int.add_zero _

end Applicable

theorem SoundBooks.apply {v : Books} (sound : SoundBooks v) {collection : Id}
    {rows : Rows CollectionApplication} (applicable : Applicable v collection rows) :
    SoundBooks (v.addApplications rows) := by
  rcases applicable.source with ⟨d, account, row, cashAccount, number, method, at_collection,
    standing, body, at_account, limit, checked⟩
  have stands : v.stands collection = true := by
    unfold Books.stands
    rw [at_collection]
    exact standing
  refine
    { movementKeys := sound.movementKeys, documentKeys := sound.documentKeys
      invoiceKeys := sound.invoiceKeys
      accountKeys := sound.accountKeys
      cashAccountKeys := sound.cashAccountKeys
      documents := ?_, invoices := ?_
      marked := sound.marked
      known := fun r mem => (sound.known r mem).mono (fun _ i found => ⟨i, found⟩)
        (fun _ d found => ⟨d, found, rfl⟩)
      currencies := fun r mem => (sound.currencies r mem).mono (fun _ _ found => found)
        (fun _ _ found => found)
      accounts := sound.accounts
      applied := ?_, collected := ?_, unpaid := ?_, allocated := ?_
      openings := sound.openings
      openingFirst := sound.openingFirst }
  · intro id d found
    apply (sound.documents id d found).congr
    rfl
  · intro id i found
    apply (sound.invoices id i found).congr
    · rfl
    · exact fun _ _ _ live => live
  · intro r mem
    rcases List.mem_append.mp mem with old | new
    · exact (sound.applied r old).mono (fun _ d found => ⟨d, found, rfl⟩)
        (fun _ i found => ⟨i, found, rfl, rfl, fun status => status⟩) (fun _ _ found => found)
    · rcases checked r new with ⟨from_collection, positive, draft, at_invoice, issued, party,
        currency, _⟩
      refine ⟨positive, d, draft, account, row, cashAccount, number, method, ?_, body, at_account,
        at_invoice, standing_status issued, party, currency⟩
      rw [from_collection]
      exact at_collection
  · intro id i found issued
    have before := sound.collected id i found issued
    rw [Applicable.collected]
    rcases Applicable.filter_invoice applicable.once id with none | ⟨r, mem, at_invoice, one⟩
    · rw [none, Rows.total_nil, add_zero]
      exact before
    · rcases checked r mem with ⟨from_collection, _, draft, at_draft, _, _, _, remaining⟩
      rw [at_invoice] at at_draft
      cases Option.some.inj (at_draft.symm.trans found)
      rw [one, Rows.total_cons, Rows.total_nil, from_collection, stands, if_pos rfl, add_zero]
      rw [at_invoice] at remaining
      exact Int.add_le_of_le_sub_left remaining
  · intro id i found dropped r mem
    rw [Applicable.applicationsOn] at mem
    rcases List.mem_append.mp mem with old | new
    · exact sound.unpaid id i found dropped r old
    · rcases List.mem_filter.mp new with ⟨new, at_invoice⟩
      rcases checked r new with ⟨_, _, draft, at_draft, issued, _⟩
      rw [of_decide_eq_true at_invoice] at at_draft
      have same : i = draft := Option.some.inj (found.symm.trans at_draft)
      rw [same, issued] at dropped
      cases dropped
  · intro id d' found
    unfold Books.allocated
    rw [Applicable.applicationsOf, Rows.total_append]
    by_cases here : id = collection
    · have all : rows.filter (fun r => r.2.collection = id) = rows :=
        List.filter_eq_self.mpr (fun r mem =>
          decide_eq_true ((checked r mem).1.trans here.symm))
      have same : d' = d := by
        rw [here] at found
        exact Option.some.inj (found.symm.trans at_collection)
      rw [all, same, here]
      exact limit
    · have none : rows.filter (fun r => r.2.collection = id) = [] := by
        apply List.filter_eq_nil_iff.mpr
        intro r mem same
        exact here ((of_decide_eq_true same).symm.trans (checked r mem).1)
      rw [none, Rows.total_nil, add_zero]
      exact sound.allocated id d' found

/-! ## A document reversed -/

/-- What has been checked by the time a document is cancelled. -/
structure Reversible (v : Books) (id : Id) (d : Document) (rows : Rows Movement) : Prop where
  found : v.documents.get? id = some d
  standing : d.standing = true
  mirrors : Mirrors (v.movementsOf (d.ref id)) rows
  keys : Rows.Distinct rows
  fresh : ∀ r ∈ rows, v.movements.get? r.1 = none

/-- A mirror is of the same document, in the same currency, on the same sides. -/
theorem Mirrors.document {v : Books} {ref : DocumentRef} {rows : Rows Movement}
    (mirrors : Mirrors (v.movementsOf ref) rows) : ∀ r ∈ rows, r.2.document = ref := by
  intro r mem
  rcases mirrors.of_mem mem with ⟨o, at_o, same⟩
  rw [same]
  exact of_decide_eq_true (List.mem_filter.mp at_o).2

theorem InOwnCurrency.mirror {v : Books} {m : Movement} (own : InOwnCurrency v m) (id : Id)
    (day : Date) (source : MovementSource) : InOwnCurrency v (m.mirror id day source) where
  account a direction side := by
    rcases Option.map_eq_some_iff.mp side with ⟨pair, at_pair, same⟩
    cases same
    exact own.account pair.1 pair.2 at_pair
  cashAccount a direction side := by
    rcases Option.map_eq_some_iff.mp side with ⟨pair, at_pair, same⟩
    cases same
    exact own.cashAccount pair.1 pair.2 at_pair

theorem Mirrors.currencies {v : Books} {ref : DocumentRef} {rows : Rows Movement}
    (mirrors : Mirrors (v.movementsOf ref) rows)
    (own : ∀ r ∈ v.movements, InOwnCurrency v r.2) : ∀ r ∈ rows, InOwnCurrency v r.2 := by
  intro r mem
  rcases mirrors.of_mem mem with ⟨o, at_o, same⟩
  rw [same]
  exact (own o (List.mem_of_mem_filter at_o)).mirror _ _ _

theorem Mirrors.reversed {originals rows : Rows Movement} (mirrors : Mirrors originals rows) :
    ∀ r ∈ rows, r.2.reverses ≠ none := by
  intro r mem
  rcases mirrors.of_mem mem with ⟨o, _, same⟩
  rw [same]
  exact Option.some_ne_none _

namespace Reversible

variable {v : Books} {id : Id} {d : Document} {rows : Rows Movement}

theorem posts (reversible : Reversible v id d rows) (day : Date) :
    Posts v (v.reverse id day rows) (d.ref id) rows :=
  ⟨rfl, reversible.mirrors.document, reversible.keys, reversible.fresh⟩

theorem after (reversible : Reversible v id d rows) (day : Date) :
    (v.reverse id day rows).documents.get? id = some (d.cancelledOn day) := by
  have updated := Rows.get?_update_self v.documents id (·.cancelledOn day)
  rw [reversible.found] at updated
  exact updated

theorem other (day : Date) {id' : Id} (different : id' ≠ id) :
    (v.reverse id day rows).documents.get? id' = v.documents.get? id' :=
  Rows.get?_update_of_ne (f := Document.cancelledOn day) different

theorem bodies (reversible : Reversible v id d rows) (day : Date) {id' : Id} {d' : Document}
    (found : v.documents.get? id' = some d') :
    ∃ d'', (v.reverse id day rows).documents.get? id' = some d'' ∧ d''.body = d'.body := by
  by_cases same : id' = id
  · rw [same] at found ⊢
    cases Option.some.inj (found.symm.trans reversible.found)
    exact ⟨_, reversible.after day, rfl⟩
  · exact ⟨d', (other day same).trans found, rfl⟩

theorem stands (reversible : Reversible v id d rows) (day : Date) {c : Id}
    (stands : (v.reverse id day rows).stands c = true) : v.stands c = true := by
  unfold Books.stands at stands ⊢
  by_cases same : c = id
  · rw [same, reversible.after] at stands
    cases stands
  · rwa [other day same] at stands

theorem stands_other (day : Date) {c : Id} (different : c ≠ id) :
    (v.reverse id day rows).stands c = v.stands c := by
  unfold Books.stands
  rw [other day different]

theorem collected (reversible : Reversible v id d rows) (sound : SoundBooks v) (day : Date)
    (invoice : Id) :
    (v.reverse id day rows).invoiceCollected invoice ≤ v.invoiceCollected invoice := by
  apply Rows.total_le
  intro r mem
  have positive := (sound.applied r (List.mem_of_mem_filter mem)).positive
  by_cases after : (v.reverse id day rows).stands r.2.collection = true
  · rw [if_pos after, if_pos (reversible.stands day after)]
  · rw [if_neg after]
    split
    · exact Int.le_of_lt positive
    · exact Int.le_refl 0

theorem standingOpenings (day : Date) {side : Side} {o : Id × Document}
    (mem : o ∈ (v.reverse id day rows).standingOpenings side) : o ∈ v.standingOpenings side := by
  rcases List.mem_filter.mp mem with ⟨listed, passes⟩
  unfold Books.reverse at listed
  rcases Rows.mem_update.mp listed with ⟨old, _⟩ | ⟨row, _, same⟩
  · exact List.mem_filter.mpr ⟨old, passes⟩
  · rw [same] at passes
    simp [Document.standing, Document.cancelledOn] at passes

end Reversible

theorem SoundBooks.reverse {v : Books} (sound : SoundBooks v) {id : Id} {d : Document}
    {rows : Rows Movement} (reversible : Reversible v id d rows) (day : Date) :
    SoundBooks (v.reverse id day rows) := by
  have posts := reversible.posts day
  have invoiceOther : ∀ i, invoiceRef i ≠ d.ref id := by
    intro i same
    exact d.body.type_ne_invoice (congrArg DocumentRef.type same).symm
  have cancelledKnown : Known (v.reverse id day rows) (d.ref id) :=
    @Known.document _ _ id (d.cancelledOn day) rfl (reversible.after day)
  refine
    { movementKeys := posts.movementKeys sound.movementKeys
      documentKeys := sound.documentKeys.update id (·.cancelledOn day)
      invoiceKeys := sound.invoiceKeys
      accountKeys := sound.accountKeys
      cashAccountKeys := sound.cashAccountKeys
      documents := ?_
      invoices := fun i draft found => (sound.invoices i draft found).congr
        (posts.movementsOf_other (invoiceOther i)) (fun _ _ _ live => live)
      marked := sound.marked
      known := posts.known
        (fun r mem => (sound.known r mem).mono (fun _ i found => ⟨i, found⟩)
          (fun _ _ found => reversible.bodies day found))
        cancelledKnown
      currencies := posts.currencies
        (fun r mem => (sound.currencies r mem).mono (fun _ _ found => found)
          (fun _ _ found => found))
        (fun r mem => (reversible.mirrors.currencies sound.currencies r mem).mono
          (fun _ _ found => found) (fun _ _ found => found))
      accounts := sound.accounts
      applied := fun r mem => (sound.applied r mem).mono
        (fun _ _ found => reversible.bodies day found)
        (fun _ i found => ⟨i, found, rfl, rfl, fun status => status⟩) (fun _ _ found => found)
      collected := fun i draft found standing =>
        Int.le_trans (reversible.collected sound day i) (sound.collected i draft found standing)
      unpaid := ?_
      allocated := ?_
      openings := ?_
      openingFirst := ?_ }
  · intro id' d' found
    by_cases same : id' = id
    · rw [same, reversible.after] at found
      cases found
      rw [same]
      have entered := sound.documents id d reversible.found
      rw [reversible.standing] at entered
      cases entered with
      | standing originals rows_eq =>
          have mirrors := reversible.mirrors
          have appended := posts.movementsOf_self
          rw [show v.movementsOf (d.ref id) = _ from rows_eq] at mirrors appended
          exact Entered.cancelled originals mirrors appended
    · rw [Reversible.other day same] at found
      apply (sound.documents id' d' found).congr
      apply posts.movementsOf_other
      intro refs
      exact same (congrArg DocumentRef.id refs)
  · intro i draft found standing r mem
    by_contra stands
    have before := reversible.stands day (Bool.not_eq_false _ ▸ stands)
    rw [sound.unpaid i draft found standing r mem] at before
    cases before
  · intro id' d' found
    by_cases same : id' = id
    · rw [same, reversible.after] at found
      cases found
      rw [same]
      exact sound.allocated id d reversible.found
    · rw [Reversible.other day same] at found
      exact sound.allocated id' d' found
  · intro side
    have fewer : ((v.reverse id day rows).standingOpenings side).length ≤
        (v.standingOpenings side).length := by
      apply Rows.length_filter_update v.documents id (·.cancelledOn day)
      intro row _ passes
      simp [Document.standing, Document.cancelledOn] at passes
    exact Nat.le_trans fewer (sound.openings side)
  · intro side o at_o r at_r
    rcases posts.unreversedOn at_r with before | ⟨mem, _, original⟩
    · exact sound.openingFirst side o (Reversible.standingOpenings day at_o) r before
    · exact absurd original (reversible.mirrors.reversed r mem)

/-! ## An invoice issued or cancelled -/

/-- An invoice `old` that becomes `new`, with the movements `rows`. -/
structure Changeable (v : Books) (id : Id) (old new : InvoiceDraft) (rows : Rows Movement) :
    Prop where
  found : v.invoices.get? id = some old
  customer : new.customer = old.customer
  currency : new.currency = old.currency
  status : new.status ≠ .draft
  marked : new.cancelledAt.isSome = decide (new.status = .cancelled)
  document : ∀ r ∈ rows, r.2.document = invoiceRef id
  keys : Rows.Distinct rows
  fresh : ∀ r ∈ rows, v.movements.get? r.1 = none
  currencies : ∀ r ∈ rows, InOwnCurrency v r.2
  after : ∀ r ∈ rows, r.2.reverses = none -> ∀ side, r.2.on side = true ->
    ∀ o ∈ v.standingOpenings side, o.2.date ≤ r.2.date
  entered : ∀ w : Books, w.movementsOf (invoiceRef id) = v.movementsOf (invoiceRef id) ++ rows ->
    w.accounts = v.accounts -> InvoiceEntered w id new
  collected : new.standing = true -> v.invoiceCollected id ≤ new.total
  unpaid : new.standing = false -> ∀ r ∈ v.applicationsOn id, v.stands r.2.collection = false

namespace Changeable

variable {v : Books} {id : Id} {old new : InvoiceDraft} {rows : Rows Movement}
  {f : InvoiceDraft -> InvoiceDraft}

theorem becomes (changeable : Changeable v id old new rows) (makes : f old = new) :
    (v.change id f rows).invoices.get? id = some new := by
  have updated := Rows.get?_update_self v.invoices id f
  rw [changeable.found, Option.map_some, makes] at updated
  exact updated

theorem posts (changeable : Changeable v id old new rows) :
    Posts v (v.change id f rows) (invoiceRef id) rows :=
  ⟨rfl, changeable.document, changeable.keys, changeable.fresh⟩

/-- Every invoice is still there, with its customer and currency. -/
theorem still (changeable : Changeable v id old new rows) (makes : f old = new) {id' : Id}
    {i : InvoiceDraft} (found : v.invoices.get? id' = some i) :
    ∃ i', (v.change id f rows).invoices.get? id' = some i' ∧ i'.customer = i.customer ∧
      i'.currency = i.currency ∧ (i.status ≠ .draft -> i'.status ≠ .draft) := by
  by_cases same : id' = id
  · rw [same] at found ⊢
    cases Option.some.inj (found.symm.trans changeable.found)
    exact ⟨new, changeable.becomes makes, changeable.customer, changeable.currency,
      fun _ => changeable.status⟩
  · exact ⟨i, (Rows.get?_update_of_ne same).trans found, rfl, rfl, fun status => status⟩

end Changeable

theorem SoundBooks.change {v : Books} (sound : SoundBooks v) {id : Id} {old new : InvoiceDraft}
    {rows : Rows Movement} {f : InvoiceDraft -> InvoiceDraft}
    (changeable : Changeable v id old new rows) (makes : f old = new) :
    SoundBooks (v.change id f rows) := by
  have posts : Posts v (v.change id f rows) (invoiceRef id) rows := changeable.posts
  have became := changeable.becomes makes
  have other : ∀ {id' i}, id' ≠ id -> (v.change id f rows).invoices.get? id' = some i ->
      v.invoices.get? id' = some i :=
    fun different found => (Rows.get?_update_of_ne different).symm.trans found
  refine
    { movementKeys := posts.movementKeys sound.movementKeys
      documentKeys := sound.documentKeys
      invoiceKeys := sound.invoiceKeys.update id f
      accountKeys := sound.accountKeys
      cashAccountKeys := sound.cashAccountKeys
      documents := ?_
      invoices := ?_
      marked := ?_
      known := posts.known
        (fun r mem => (sound.known r mem).mono
          (fun _ i found => (changeable.still makes found).imp (fun _ both => both.1))
          (fun _ d found => ⟨d, found, rfl⟩))
        (.invoice rfl became)
      currencies := posts.currencies
        (fun r mem => (sound.currencies r mem).mono (fun _ _ found => found)
          (fun _ _ found => found))
        (fun r mem => (changeable.currencies r mem).mono (fun _ _ found => found)
          (fun _ _ found => found))
      accounts := sound.accounts
      applied := fun r mem => (sound.applied r mem).mono (fun _ d found => ⟨d, found, rfl⟩)
        (fun _ _ found => changeable.still makes found) (fun _ _ found => found)
      collected := ?_
      unpaid := ?_
      allocated := sound.allocated
      openings := sound.openings
      openingFirst := ?_ }
  · intro id' d found
    apply (sound.documents id' d found).congr
    apply posts.movementsOf_other
    intro same
    exact d.body.type_ne_invoice (congrArg DocumentRef.type same)
  · intro id' i found
    by_cases same : id' = id
    · rw [same, became] at found
      cases found
      rw [same]
      exact changeable.entered _ posts.movementsOf_self rfl
    · apply (sound.invoices id' i (other same found)).congr
      · apply posts.movementsOf_other
        intro refs
        exact same (congrArg DocumentRef.id refs)
      · exact fun _ _ _ live => live
  · intro id' i found
    by_cases same : id' = id
    · rw [same, became] at found
      cases found
      exact changeable.marked
    · exact sound.marked id' i (other same found)
  · intro id' i found standing
    by_cases same : id' = id
    · rw [same, became] at found
      cases found
      rw [same]
      exact changeable.collected standing
    · exact sound.collected id' i (other same found) standing
  · intro id' i found standing
    by_cases same : id' = id
    · rw [same, became] at found
      cases found
      rw [same]
      exact changeable.unpaid standing
    · exact sound.unpaid id' i (other same found) standing
  · intro side o at_o r at_r
    rcases posts.unreversedOn at_r with before | ⟨mem, on, original⟩
    · exact sound.openingFirst side o at_o r before
    · exact changeable.after r mem original side on o at_o

end Ledger
end Shiftlush
