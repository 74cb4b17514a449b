import Shiftlush.Ledger.Locks

namespace Shiftlush
namespace Ledger

open Transactions

/-!
# The writes of the ledger

For each kind of write, the two obligations of the convention: it reads nothing
the session does not protect, and it changes nothing another session may rely
on.  Most writes read nothing at all; what they need is the lock of whatever
they change.
-/

variable {t : Trail Books Row Note} {s v : Books} {id : Id}

/-- Steps of `Confined`: what the write leaves alone of the rows not locked.  A
document the session made itself is nobody else's. -/
theorem confined_step {w : Books} (confined : convention.Confined t s v)
    (rows : ∀ row : Row, ¬ t.Locked row ->
      (∀ id, row = .document id -> ∃ d, s.documents.get? id = some d) -> row.kept v w)
    (always : Always v w) (ids : ∀ id ∉ t.ids, Unused id v -> Unused id w) :
    convention.Confined t s w where
  rows row free := by
    have before : row.kept s v := confined.rows row free
    cases row with
    | document id =>
        intro d found
        have known : ∀ id', Row.document id = .document id' ->
            ∃ d, s.documents.get? id' = some d := by
          intro id' same
          cases same
          exact ⟨d, found⟩
        exact Row.kept_trans before (rows _ free known) d found
    | _ => exact Row.kept_trans before (rows _ free (fun _ same => Row.noConfusion same))
  always := Always.trans confined.always always
  ids id free unused := ids id free (confined.ids id free unused)

/-- The owner of a document's entry: its row is locked and there, or its key is
the session's own. -/
inductive Owned (t : Trail Books Row Note) (s v : Books) (ref : DocumentRef) : Prop where
  | invoice {k : Id} : ref = invoiceRef k -> t.Locked (.invoice k) -> Owned t s v ref
  | document {k : Id} {d : Document} : ref = d.ref k -> t.Locked (.document k) ->
      v.documents.get? k = some d -> Owned t s v ref
  | own {k : Id} {body : DocumentBody} : ref = ⟨body.type, k⟩ -> k ∈ t.ids -> Unused k s ->
      Owned t s v ref

namespace Owned

theorem locked_invoice {i : Id} (owned : Owned t s v (invoiceRef i)) : t.Locked (.invoice i) := by
  cases owned with
  | @invoice k same locked =>
      cases same
      exact locked
  | document same => exact absurd (congrArg DocumentRef.type same).symm (DocumentBody.type_ne_invoice _)
  | own same => exact absurd (congrArg DocumentRef.type same).symm (DocumentBody.type_ne_invoice _)

theorem locked_document {k : Id} {d d' : Document} (owned : Owned t s v (d.ref k))
    (found : s.documents.get? k = some d') : t.Locked (.document k) := by
  cases owned with
  | invoice same => exact absurd (congrArg DocumentRef.type same) (DocumentBody.type_ne_invoice _)
  | document same locked =>
      have key : k = _ := congrArg DocumentRef.id same
      rw [key]
      exact locked
  | own same _ unused =>
      have key : k = _ := congrArg DocumentRef.id same
      rw [key, unused.document] at found
      cases found

theorem known {k : Id} {body : DocumentBody} (owned : Owned t s v ⟨body.type, k⟩)
    (foreign : k ∉ t.ids) : ∃ d, v.documents.get? k = some d := by
  cases owned with
  | invoice same => exact absurd (congrArg DocumentRef.type same) (DocumentBody.type_ne_invoice _)
  | document same _ found =>
      have key : k = _ := congrArg DocumentRef.id same
      rw [key]
      exact ⟨_, found⟩
  | own same mine =>
      have key : k = _ := congrArg DocumentRef.id same
      exact absurd (key ▸ mine) foreign

end Owned

/-! ## Movements -/

/-- The row that is locked for a side. -/
def Side.row : Side -> Row
  | .account id => .account id
  | .cash id => .cashAccount id

theorem movementsOf_addMovement (v : Books) (id : Id) (m : Movement) (ref : DocumentRef) :
    (v.addMovement id m).movementsOf ref =
      v.movementsOf ref ++ if m.document = ref then [(id, m)] else [] := by
  unfold Books.movementsOf Books.addMovement Rows.insert
  rw [List.filter_append]
  by_cases same : m.document = ref
  · rw [if_pos same, List.filter_cons_of_pos (by simpa using same), List.filter_nil]
  · rw [if_neg same, List.filter_cons_of_neg (by simpa using same), List.filter_nil]

/-- A movement is reversed by the new one, or was before. -/
theorem isReversed_addMovement (v : Books) (id : Id) (m : Movement) (k : Id) :
    (v.addMovement id m).isReversed k = (v.isReversed k || decide (m.reverses = some k)) := by
  unfold Books.isReversed Books.addMovement Rows.insert
  rw [List.any_append, List.any_cons, List.any_nil, Bool.or_false]

/-- What the new movement reverses drops out, and it counts itself if it reverses nothing. -/
theorem mem_unreversedOn_addMovement {m : Movement} {side : Side} {r : Id × Movement} :
    r ∈ (v.addMovement id m).unreversedOn side ↔
      (r ∈ v.unreversedOn side ∧ m.reverses ≠ some r.1) ∨
        (r = (id, m) ∧ m.on side = true ∧ m.reverses = none ∧ v.isReversed id = false) := by
  unfold Books.unreversedOn
  rw [List.mem_filter, List.mem_filter, isReversed_addMovement]
  unfold Books.addMovement Rows.insert
  rw [List.mem_append, List.mem_singleton]
  constructor
  · rintro ⟨old | new, passes⟩
    · left
      simp only [Bool.not_or, Bool.and_eq_true, Bool.not_eq_true', decide_eq_false_iff_not]
        at passes
      exact ⟨⟨old, by simp [passes.1.1, passes.1.2, passes.2.1]⟩, passes.2.2⟩
    · right
      subst new
      simp only [Bool.not_or, Bool.and_eq_true, Bool.not_eq_true', Option.isNone_iff_eq_none]
        at passes
      exact ⟨rfl, passes.1.1, passes.1.2, passes.2.1⟩
  · rintro (⟨⟨old, passes⟩, other⟩ | ⟨new, on, original, unreversed⟩)
    · simp only [Bool.and_eq_true, Bool.not_eq_true'] at passes
      exact ⟨Or.inl old, by simp [passes.1.1, passes.1.2, passes.2, other]⟩
    · subst new
      exact ⟨Or.inr rfl, by simp [on, original, unreversed]⟩

/-- A movement under a key of one's own makes no difference between two views
that agreed on an entry. -/
theorem SameEntries.addMovement {ref : DocumentRef} {v v' : Books} (same : SameEntries ref v v')
    {m : Movement} (reversed : v'.isReversed id = v.isReversed id) :
    SameEntries ref (v.addMovement id m) (v'.addMovement id m) where
  movements := by
    rw [movementsOf_addMovement, movementsOf_addMovement, same.movements]
  reversed r mem := by
    rw [isReversed_addMovement, isReversed_addMovement]
    rw [movementsOf_addMovement] at mem
    rcases List.mem_append.mp mem with old | new
    · rw [same.reversed r old]
    · split at new
      · rw [List.mem_singleton.mp new, reversed]
      · cases new

theorem NoLater.addMovement {side : Side} {v v' : Books} (later : NoLater side v v')
    {m : Movement} (reversed : v'.isReversed id = v.isReversed id) :
    NoLater side (v.addMovement id m) (v'.addMovement id m) where
  openings := later.openings
  movements r mem := by
    rw [mem_unreversedOn_addMovement] at mem ⊢
    rcases mem with ⟨old, other⟩ | ⟨new, on, original, unreversed⟩
    · exact Or.inl ⟨later.movements r old, other⟩
    · exact Or.inr ⟨new, on, original, reversed ▸ unreversed⟩

/-- No row another session may change decides what the movement adds. -/
theorem respects_addMovement {m : Movement} (mine : id ∈ t.ids) :
    convention.Respects t (Books.addMovement id m) v where
  rows v' rely row kept := by
    have reversed : v'.isReversed id = v.isReversed id := (rely.ids id mine).reversed
    cases row with
    | invoice i =>
        exact ⟨kept.row, kept.entries.addMovement reversed, kept.applications, kept.collections⟩
    | document k =>
        intro d found
        have same : SameDocument k d v v' := kept d found
        exact ⟨same.row, same.entries.addMovement reversed, same.applications⟩
    | account a => exact NoLater.addMovement kept reversed
    | cashAccount c => exact NoLater.addMovement kept reversed
    | movement k => trivial
    | company k => exact kept
    | tillKey firm => exact kept
    | accountKey customer currency => exact kept
    | counter firm numberPrefix => exact kept
  ids v' rely k same := by
    have reversed : v'.isReversed id = v.isReversed id := (rely.ids id mine).reversed
    refine ⟨same.document, same.applications, fun body => (same.entries body).addMovement reversed,
      ?_, same.account, same.cashAccount⟩
    rw [isReversed_addMovement, isReversed_addMovement, same.reversed]
  always v' rely := ⟨rely.always.accounts, rely.always.cashAccounts, rely.always.live,
    rely.always.tills⟩

/-- What the write of a movement needs: its own key, the entry it belongs to,
and the sides it is on unless it reverses a movement of the same document. -/
structure Postable (t : Trail Books Row Note) (s v : Books) (id : Id) (m : Movement) : Prop where
  mine : id ∈ t.ids
  owned : Owned t s v m.document
  sides : m.reverses = none -> ∀ side, m.on side = true -> t.Locked side.row
  mirror : ∀ k, m.reverses = some k -> ∃ o ∈ v.movements, o.1 = k ∧ o.2.document = m.document
  keys : v.movements.Distinct

namespace Postable

variable {m : Movement}

/-- The entries of other documents are as they were. -/
theorem other (postable : Postable t s v id m) {ref : DocumentRef} (different : m.document ≠ ref) :
    SameEntries ref v (v.addMovement id m) where
  movements := by
    rw [movementsOf_addMovement, if_neg different, List.append_nil]
  reversed r mem := by
    rw [isReversed_addMovement]
    have unnamed : m.reverses ≠ some r.1 := by
      intro reverses
      rcases postable.mirror r.1 reverses with ⟨o, at_o, key, document⟩
      rcases List.mem_filter.mp mem with ⟨listed, at_ref⟩
      have same : o = r := Rows.unique postable.keys at_o listed key
      apply different
      rw [← document, same]
      exact of_decide_eq_true at_ref
    rw [decide_eq_false unnamed, Bool.or_false]

/-- A side that is not locked gets no movement, so no later one. -/
theorem noLater (postable : Postable t s v id m) (side : Side) (free : ¬ t.Locked side.row) :
    NoLater side v (v.addMovement id m) where
  openings _ mem := mem
  movements r mem := by
    rcases mem_unreversedOn_addMovement.mp mem with ⟨old, _⟩ | ⟨_, on, original, _⟩
    · exact old
    · exact absurd (postable.sides original side on) free

theorem confined (postable : Postable t s v id m) (confined : convention.Confined t s v) :
    convention.Confined t s (v.addMovement id m) := by
  apply confined_step confined
  · intro row free known
    cases row with
    | invoice i =>
        refine ⟨rfl, postable.other ?_, rfl, fun _ _ => rfl⟩
        intro same
        exact free (same ▸ postable.owned).locked_invoice
    | document k =>
        intro d found
        refine ⟨found, postable.other ?_, rfl⟩
        intro same
        rcases known k rfl with ⟨d', there⟩
        exact free ((same ▸ postable.owned).locked_document there)
    | account a => exact postable.noLater (.account a) free
    | cashAccount c => exact postable.noLater (.cash c) free
    | movement k => trivial
    | company k => rfl
    | tillKey firm => rfl
    | accountKey customer currency => rfl
    | counter firm numberPrefix => rfl
  · exact ⟨fun _ _ found => found, fun _ _ found => found, fun _ _ _ found => found,
      fun _ _ found => found⟩
  · intro k foreign unused
    have different : id ≠ k := fun same => foreign (same ▸ postable.mine)
    refine ⟨unused.document, unused.application, ?_, unused.account, unused.cashAccount,
      unused.applications, ?_, ?_⟩
    · exact (Rows.get?_insert_of_ne different).trans unused.movement
    · intro body
      rw [movementsOf_addMovement, unused.entries, List.nil_append, if_neg]
      intro same
      rcases (same ▸ postable.owned).known foreign with ⟨d, found⟩
      rw [unused.document] at found
      cases found
    · rw [isReversed_addMovement, unused.reversed, Bool.false_or, decide_eq_false_iff_not]
      intro reverses
      rcases postable.mirror k reverses with ⟨o, at_o, key, _⟩
      exact Rows.get?_eq_none.mp unused.movement o.2 (key ▸ at_o)

end Postable

/-! ## Documents -/

theorem mem_standingOpenings_addDocument {d : Document} {side : Side} {o : Id × Document} :
    o ∈ (v.addDocument id d).standingOpenings side ↔ o ∈ v.standingOpenings side ∨
      (o = (id, d) ∧ d.openingSide? = some side ∧ d.standing = true) := by
  unfold Books.standingOpenings Books.addDocument Rows.insert
  rw [List.filter_append, List.mem_append]
  apply or_congr Iff.rfl
  rw [List.mem_filter, List.mem_singleton]
  constructor
  · rintro ⟨same, passes⟩
    subst same
    simp only [Bool.and_eq_true, decide_eq_true_eq] at passes
    exact ⟨rfl, passes⟩
  · rintro ⟨same, opening⟩
    subst same
    simpa using opening

/-- So it is with a document under a key of one's own. -/
theorem respects_addDocument {d : Document} (mine : id ∈ t.ids) :
    convention.Respects t (Books.addDocument id d) v where
  rows v' rely row kept := by
    have key : SameKey id v v' := rely.ids id mine
    have rowOf : ∀ k, v'.documents.get? k = v.documents.get? k ->
        (v'.addDocument id d).documents.get? k = (v.addDocument id d).documents.get? k := by
      intro k same
      unfold Books.addDocument
      rw [Rows.get?_insert, Rows.get?_insert, same]
    cases row with
    | invoice i =>
        exact ⟨kept.row, ⟨kept.entries.movements, kept.entries.reversed⟩, kept.applications,
          fun r mem => rowOf _ (kept.collections r mem)⟩
    | document k =>
        intro d' found
        cases before : v.documents.get? k with
        | some d'' =>
            have after : (v.addDocument id d).documents.get? k = some d'' :=
              Rows.get?_insert_of_some before
            cases Option.some.inj (after.symm.trans found)
            have same : SameDocument k d' v v' := kept d' before
            exact ⟨Rows.get?_insert_of_some same.row,
              ⟨same.entries.movements, same.entries.reversed⟩, same.applications⟩
        | none =>
            by_cases here : id = k
            · subst here
              have after : (v.addDocument id d).documents.get? id = some d :=
                Rows.get?_insert_self before
              cases Option.some.inj (after.symm.trans found)
              have entries := key.entries d.body
              exact ⟨(rowOf id key.document).trans after,
                ⟨entries.movements, entries.reversed⟩, key.applications⟩
            · have after : (v.addDocument id d).documents.get? k = none :=
                (Rows.get?_insert_of_ne here).trans before
              rw [after] at found
              cases found
    | account a =>
        refine ⟨?_, kept.movements⟩
        intro o mem
        rw [mem_standingOpenings_addDocument] at mem ⊢
        exact mem.imp_left (kept.openings o)
    | cashAccount c =>
        refine ⟨?_, kept.movements⟩
        intro o mem
        rw [mem_standingOpenings_addDocument] at mem ⊢
        exact mem.imp_left (kept.openings o)
    | movement k => trivial
    | company k => exact kept
    | tillKey firm => exact kept
    | accountKey customer currency => exact kept
    | counter firm numberPrefix => exact kept
  ids v' rely k same := by
    refine ⟨?_, same.applications, fun body => ?_, same.reversed, same.account, same.cashAccount⟩
    · unfold Books.addDocument
      rw [Rows.get?_insert, Rows.get?_insert, same.document]
    · exact ⟨(same.entries body).movements, (same.entries body).reversed⟩
  always v' rely := ⟨rely.always.accounts, rely.always.cashAccounts, rely.always.live,
    rely.always.tills⟩

/-- An opening needs its side, and no application may be there before its collection. -/
theorem confined_addDocument {d : Document} (mine : id ∈ t.ids)
    (unapplied : v.applicationsOf id = [])
    (opening : ∀ side, d.openingSide? = some side -> t.Locked side.row)
    (confined : convention.Confined t s v) : convention.Confined t s (v.addDocument id d) := by
  have noLater : ∀ side : Side, ¬ t.Locked side.row -> NoLater side v (v.addDocument id d) := by
    intro side free
    refine ⟨?_, fun _ mem => mem⟩
    intro o mem
    rcases mem_standingOpenings_addDocument.mp mem with old | ⟨_, on, _⟩
    · exact old
    · exact absurd (opening side on) free
  apply confined_step confined
  · intro row free known
    cases row with
    | invoice i =>
        refine ⟨rfl, ⟨rfl, fun _ _ => rfl⟩, rfl, ?_⟩
        intro r mem
        apply Rows.get?_insert_of_ne
        intro same
        have listed : r ∈ v.applicationsOf id :=
          List.mem_filter.mpr ⟨List.mem_of_mem_filter mem, decide_eq_true same.symm⟩
        rw [unapplied] at listed
        cases listed
    | document k =>
        intro d' found
        exact ⟨Rows.get?_insert_of_some found, ⟨rfl, fun _ _ => rfl⟩, rfl⟩
    | account a => exact noLater (.account a) free
    | cashAccount c => exact noLater (.cash c) free
    | movement k => trivial
    | company k => rfl
    | tillKey firm => rfl
    | accountKey customer currency => rfl
    | counter firm numberPrefix => rfl
  · exact ⟨fun _ _ found => found, fun _ _ found => found, fun _ _ _ found => found,
      fun _ _ found => found⟩
  · intro k foreign unused
    have different : id ≠ k := fun same => foreign (same ▸ mine)
    exact ⟨(Rows.get?_insert_of_ne different).trans unused.document, unused.application,
      unused.movement, unused.account, unused.cashAccount, unused.applications, unused.entries,
      unused.reversed⟩

theorem documents_stampCancelled (v : Books) (id : Id) (day : Date) (k : Id) :
    (v.stampCancelled id day).documents.get? k =
      if k = id then (v.documents.get? k).map (Document.cancelledOn day)
      else v.documents.get? k :=
  Rows.get?_update v.documents id k (Document.cancelledOn day)

theorem respects_stampCancelled {day : Date} :
    convention.Respects t (Books.stampCancelled id day) v where
  rows v' rely row kept := by
    have rowOf : ∀ k, v'.documents.get? k = v.documents.get? k ->
        (v'.stampCancelled id day).documents.get? k =
          (v.stampCancelled id day).documents.get? k := by
      intro k same
      rw [documents_stampCancelled, documents_stampCancelled, same]
    have noLater : ∀ side, NoLater side v v' ->
        NoLater side (v.stampCancelled id day) (v'.stampCancelled id day) := by
      intro side later
      refine ⟨?_, later.movements⟩
      intro o mem
      rcases List.mem_filter.mp mem with ⟨listed, passes⟩
      unfold Books.stampCancelled at listed
      rcases Rows.mem_update.mp listed with ⟨old, different⟩ | ⟨_, _, same⟩
      · have before := later.openings o (List.mem_filter.mpr ⟨old, passes⟩)
        refine List.mem_filter.mpr ⟨?_, passes⟩
        exact Rows.mem_update.mpr (Or.inl ⟨List.mem_of_mem_filter before, different⟩)
      · rw [same] at passes
        simp [Document.standing, Document.cancelledOn] at passes
    cases row with
    | invoice i =>
        exact ⟨kept.row, ⟨kept.entries.movements, kept.entries.reversed⟩, kept.applications,
          fun r mem => rowOf _ (kept.collections r mem)⟩
    | document k =>
        intro d found
        have updated := documents_stampCancelled v id day k
        by_cases here : k = id
        · rw [if_pos here] at updated
          rw [updated] at found
          rcases Option.map_eq_some_iff.mp found with ⟨d', before, made⟩
          have same : SameDocument k d' v v' := kept d' before
          have ref : d.ref k = d'.ref k := by
            rw [← made]
            rfl
          refine ⟨?_, ?_, same.applications⟩
          · rw [rowOf k (same.row.trans before.symm), updated, before, ← made]
            rfl
          · rw [ref]
            exact ⟨same.entries.movements, same.entries.reversed⟩
        · rw [if_neg here] at updated
          have before := updated.symm.trans found
          have same : SameDocument k d v v' := kept d before
          exact ⟨(rowOf k (same.row.trans before.symm)).trans found,
            ⟨same.entries.movements, same.entries.reversed⟩, same.applications⟩
    | account a => exact noLater _ kept
    | cashAccount c => exact noLater _ kept
    | movement k => trivial
    | company k => exact kept
    | tillKey firm => exact kept
    | accountKey customer currency => exact kept
    | counter firm numberPrefix => exact kept
  ids v' rely k same := by
    refine ⟨?_, same.applications, fun body => ?_, same.reversed, same.account, same.cashAccount⟩
    · rw [documents_stampCancelled, documents_stampCancelled, same.document]
    · exact ⟨(same.entries body).movements, (same.entries body).reversed⟩
  always v' rely := ⟨rely.always.accounts, rely.always.cashAccounts, rely.always.live,
    rely.always.tills⟩

/-- The stamp changes what every invoice of the document has collected: they are
locked too. -/
theorem confined_stampCancelled {day : Date} (locked : t.Locked (.document id))
    (invoices : ∀ r ∈ v.applicationsOf id, t.Locked (.invoice r.2.invoice))
    (confined : convention.Confined t s v) :
    convention.Confined t s (v.stampCancelled id day) := by
  have noLater : ∀ side, NoLater side v (v.stampCancelled id day) := by
    intro side
    refine ⟨?_, fun _ mem => mem⟩
    intro o mem
    rcases List.mem_filter.mp mem with ⟨listed, passes⟩
    unfold Books.stampCancelled at listed
    rcases Rows.mem_update.mp listed with ⟨old, _⟩ | ⟨_, _, same⟩
    · exact List.mem_filter.mpr ⟨old, passes⟩
    · rw [same] at passes
      simp [Document.standing, Document.cancelledOn] at passes
  apply confined_step confined
  · intro row free known
    cases row with
    | invoice i =>
        refine ⟨rfl, ⟨rfl, fun _ _ => rfl⟩, rfl, ?_⟩
        intro r mem
        rcases List.mem_filter.mp mem with ⟨listed, at_invoice⟩
        apply Rows.get?_update_of_ne
        intro same
        have applied := invoices r (List.mem_filter.mpr ⟨listed, decide_eq_true same⟩)
        rw [of_decide_eq_true at_invoice] at applied
        exact free applied
    | document k =>
        intro d found
        have different : k ≠ id := fun same => free (same ▸ locked)
        exact ⟨(Rows.get?_update_of_ne different).trans found, ⟨rfl, fun _ _ => rfl⟩, rfl⟩
    | account a => exact noLater _
    | cashAccount c => exact noLater _
    | movement k => trivial
    | company k => rfl
    | tillKey firm => rfl
    | accountKey customer currency => rfl
    | counter firm numberPrefix => rfl
  · exact ⟨fun _ _ found => found, fun _ _ found => found, fun _ _ _ found => found,
      fun _ _ found => found⟩
  · intro k _ unused
    refine ⟨?_, unused.application, unused.movement, unused.account, unused.cashAccount,
      unused.applications, unused.entries, unused.reversed⟩
    rw [documents_stampCancelled, unused.document]
    exact ite_self none

/-! ## Applications -/

theorem applicationsOn_addApplication (v : Books) (id : Id) (a : CollectionApplication)
    (invoice : Id) : (v.addApplication id a).applicationsOn invoice =
      v.applicationsOn invoice ++ if a.invoice = invoice then [(id, a)] else [] := by
  unfold Books.applicationsOn Books.addApplication Rows.insert
  rw [List.filter_append]
  by_cases same : a.invoice = invoice
  · rw [if_pos same, List.filter_cons_of_pos (by simpa using same), List.filter_nil]
  · rw [if_neg same, List.filter_cons_of_neg (by simpa using same), List.filter_nil]

theorem applicationsOf_addApplication (v : Books) (id : Id) (a : CollectionApplication)
    (collection : Id) : (v.addApplication id a).applicationsOf collection =
      v.applicationsOf collection ++ if a.collection = collection then [(id, a)] else [] := by
  unfold Books.applicationsOf Books.addApplication Rows.insert
  rw [List.filter_append]
  by_cases same : a.collection = collection
  · rw [if_pos same, List.filter_cons_of_pos (by simpa using same), List.filter_nil]
  · rw [if_neg same, List.filter_cons_of_neg (by simpa using same), List.filter_nil]

/-- The collection an application is made from: locked and there, or one's own. -/
def Source (t : Trail Books Row Note) (s v : Books) (collection : Id) : Prop :=
  (t.Locked (.document collection) ∧ ∃ d, v.documents.get? collection = some d) ∨
    (collection ∈ t.ids ∧ Unused collection s)

/-- The others leave it as it is. -/
theorem Source.stays {collection : Id} (source : Source t s v collection) {v' : Books}
    (rely : convention.Rely t v v') :
    v'.documents.get? collection = v.documents.get? collection := by
  rcases source with ⟨locked, d, found⟩ | ⟨mine, _⟩
  · have kept : (Row.document collection).kept v v' := rely.rows _ locked
    rw [(kept d found).row, found]
  · have key : SameKey collection v v' := rely.ids _ mine
    exact key.document

theorem respects_addApplication {a : CollectionApplication} (source : Source t s v a.collection) :
    convention.Respects t (Books.addApplication id a) v where
  rows v' rely row kept := by
    have stays := source.stays rely
    cases row with
    | invoice i =>
        refine ⟨kept.row, ⟨kept.entries.movements, kept.entries.reversed⟩, ?_, ?_⟩
        · rw [applicationsOn_addApplication, applicationsOn_addApplication, kept.applications]
        · intro r mem
          rw [applicationsOn_addApplication] at mem
          rcases List.mem_append.mp mem with old | new
          · exact kept.collections r old
          · split at new
            · rw [List.mem_singleton.mp new]
              exact stays
            · cases new
    | document k =>
        intro d found
        have same : SameDocument k d v v' := kept d found
        refine ⟨same.row, ⟨same.entries.movements, same.entries.reversed⟩, ?_⟩
        rw [applicationsOf_addApplication, applicationsOf_addApplication, same.applications]
    | account a => exact ⟨kept.openings, kept.movements⟩
    | cashAccount c => exact ⟨kept.openings, kept.movements⟩
    | movement k => trivial
    | company k => exact kept
    | tillKey firm => exact kept
    | accountKey customer currency => exact kept
    | counter firm numberPrefix => exact kept
  ids v' rely k same := by
    refine ⟨same.document, ?_, fun body => ?_, same.reversed, same.account, same.cashAccount⟩
    · rw [applicationsOf_addApplication, applicationsOf_addApplication, same.applications]
    · exact ⟨(same.entries body).movements, (same.entries body).reversed⟩
  always v' rely := ⟨rely.always.accounts, rely.always.cashAccounts, rely.always.live,
    rely.always.tills⟩

/-- An application changes its invoice and its collection. -/
theorem confined_addApplication {a : CollectionApplication} (mine : id ∈ t.ids)
    (source : Source t s v a.collection) (invoice : t.Locked (.invoice a.invoice))
    (confined : convention.Confined t s v) : convention.Confined t s (v.addApplication id a) := by
  apply confined_step confined
  · intro row free known
    cases row with
    | invoice i =>
        refine ⟨rfl, ⟨rfl, fun _ _ => rfl⟩, ?_, fun _ _ => rfl⟩
        rw [applicationsOn_addApplication, if_neg, List.append_nil]
        exact fun same => free (same ▸ invoice)
    | document k =>
        intro d found
        refine ⟨found, ⟨rfl, fun _ _ => rfl⟩, ?_⟩
        rw [applicationsOf_addApplication, if_neg, List.append_nil]
        intro same
        rcases source with ⟨locked, _⟩ | ⟨_, unused⟩
        · exact free (same ▸ locked)
        · rcases known k rfl with ⟨d', there⟩
          rw [← same, unused.document] at there
          cases there
    | account a => exact ⟨fun _ mem => mem, fun _ mem => mem⟩
    | cashAccount c => exact ⟨fun _ mem => mem, fun _ mem => mem⟩
    | movement k => trivial
    | company k => rfl
    | tillKey firm => rfl
    | accountKey customer currency => rfl
    | counter firm numberPrefix => rfl
  · exact ⟨fun _ _ found => found, fun _ _ found => found, fun _ _ _ found => found,
      fun _ _ found => found⟩
  · intro k foreign unused
    have different : id ≠ k := fun same => foreign (same ▸ mine)
    refine ⟨unused.document, (Rows.get?_insert_of_ne different).trans unused.application,
      unused.movement, unused.account, unused.cashAccount, ?_, unused.entries, unused.reversed⟩
    rw [applicationsOf_addApplication, unused.applications, List.nil_append, if_neg]
    intro same
    rcases source with ⟨_, d, found⟩ | ⟨own, _⟩
    · rw [same, unused.document] at found
      cases found
    · exact foreign (same ▸ own)

/-! ## Invoices -/

theorem respects_updateInvoice {f : InvoiceDraft -> InvoiceDraft} :
    convention.Respects t (Books.updateInvoice id f) v where
  rows v' rely row kept := by
    cases row with
    | invoice i =>
        refine ⟨?_, ⟨kept.entries.movements, kept.entries.reversed⟩, kept.applications,
          kept.collections⟩
        unfold Books.updateInvoice
        rw [Rows.get?_update, Rows.get?_update, kept.row]
    | document k =>
        intro d found
        have same : SameDocument k d v v' := kept d found
        exact ⟨same.row, ⟨same.entries.movements, same.entries.reversed⟩, same.applications⟩
    | account a => exact ⟨kept.openings, kept.movements⟩
    | cashAccount c => exact ⟨kept.openings, kept.movements⟩
    | movement k => trivial
    | company k => exact kept
    | tillKey firm => exact kept
    | accountKey customer currency => exact kept
    | counter firm numberPrefix => exact kept
  ids v' rely k same := ⟨same.document, same.applications,
    fun body => ⟨(same.entries body).movements, (same.entries body).reversed⟩, same.reversed,
    same.account, same.cashAccount⟩
  always v' rely := ⟨rely.always.accounts, rely.always.cashAccounts, rely.always.live,
    rely.always.tills⟩

theorem confined_updateInvoice {f : InvoiceDraft -> InvoiceDraft} (locked : t.Locked (.invoice id))
    (confined : convention.Confined t s v) : convention.Confined t s (v.updateInvoice id f) := by
  apply confined_step confined
  · intro row free known
    cases row with
    | invoice i =>
        refine ⟨?_, ⟨rfl, fun _ _ => rfl⟩, rfl, fun _ _ => rfl⟩
        exact Rows.get?_update_of_ne (fun same => free (same ▸ locked))
    | document k => exact fun d found => ⟨found, ⟨rfl, fun _ _ => rfl⟩, rfl⟩
    | account a => exact ⟨fun _ mem => mem, fun _ mem => mem⟩
    | cashAccount c => exact ⟨fun _ mem => mem, fun _ mem => mem⟩
    | movement k => trivial
    | company k => rfl
    | tillKey firm => rfl
    | accountKey customer currency => rfl
    | counter firm numberPrefix => rfl
  · exact ⟨fun _ _ found => found, fun _ _ found => found, fun _ _ _ found => found,
      fun _ _ found => found⟩
  · exact fun k _ unused => ⟨unused.document, unused.application, unused.movement, unused.account,
      unused.cashAccount, unused.applications, unused.entries, unused.reversed⟩

/-! ## Accounts and tills -/

theorem accountOf_addAccount (v : Books) (id : Id) (a : Account) (customer : Id)
    (currency : String) : (v.addAccount id a).accountOf customer currency =
      (v.accountOf customer currency).or
        (if a.party = .customer customer ∧ a.currency = currency then some (id, a) else none) := by
  unfold Books.accountOf Books.addAccount Rows.insert
  rw [List.find?_append]
  congr 1
  by_cases same : a.party = .customer customer ∧ a.currency = currency
  · rw [if_pos same, List.find?_cons_of_pos (by simpa using same)]
  · rw [if_neg same, List.find?_cons_of_neg (by simpa using same)]
    rfl

theorem defaultTill_addCashAccount (v : Books) (id : Id) (till : CashAccount) (firm : Id) :
    (v.addCashAccount id till).defaultTill firm = (v.defaultTill firm).or
      (if till.company = firm ∧ till.role = .default then some (id, till) else none) := by
  unfold Books.defaultTill Books.addCashAccount Rows.insert
  rw [List.find?_append]
  congr 1
  by_cases same : till.company = firm ∧ till.role = .default
  · rw [if_pos same, List.find?_cons_of_pos (by simpa using same)]
  · rw [if_neg same, List.find?_cons_of_neg (by simpa using same)]
    rfl

theorem respects_addAccount {a : Account} {customer : Id} (mine : id ∈ t.ids)
    (party : a.party = .customer customer) (locked : t.Locked (.accountKey customer a.currency)) :
    convention.Respects t (Books.addAccount id a) v where
  rows v' rely row kept := by
    cases row with
    | accountKey customer' currency =>
        have same : v'.accountOf customer' currency = v.accountOf customer' currency := kept
        show (v'.addAccount id a).accountOf customer' currency = _
        rw [accountOf_addAccount, accountOf_addAccount, same]
    | invoice i =>
        exact ⟨kept.row, ⟨kept.entries.movements, kept.entries.reversed⟩, kept.applications,
          kept.collections⟩
    | document k =>
        intro d found
        have same : SameDocument k d v v' := kept d found
        exact ⟨same.row, ⟨same.entries.movements, same.entries.reversed⟩, same.applications⟩
    | account a => exact ⟨kept.openings, kept.movements⟩
    | cashAccount c => exact ⟨kept.openings, kept.movements⟩
    | movement k => trivial
    | company k => exact kept
    | tillKey firm => exact kept
    | counter firm numberPrefix => exact kept
  ids v' rely k same := by
    refine ⟨same.document, same.applications, fun body => ?_, same.reversed, ?_,
      same.cashAccount⟩
    · exact ⟨(same.entries body).movements, (same.entries body).reversed⟩
    · unfold Books.addAccount
      rw [Rows.get?_insert, Rows.get?_insert, same.account]
  always v' rely := by
    have always : Always v v' := rely.always
    have key : SameKey id v v' := rely.ids id mine
    have index : v'.accountOf customer a.currency = v.accountOf customer a.currency :=
      rely.rows _ locked
    refine ⟨?_, always.cashAccounts, ?_, always.tills⟩
    · intro k row found
      by_cases here : id = k
      · subst here
        unfold Books.addAccount at found ⊢
        rwa [Rows.get?_insert, key.account, ← Rows.get?_insert]
      · have before := (Rows.get?_insert_of_ne here).symm.trans found
        exact Rows.get?_insert_of_some (always.accounts k row before)
    · intro customer' currency r found
      rw [accountOf_addAccount] at found ⊢
      cases before : v.accountOf customer' currency with
      | some r' =>
          rw [before] at found
          rw [always.live customer' currency r' before]
          exact found
      | none =>
          rw [before, Option.none_or] at found
          split at found
          · rename_i match_key
            have same : customer = customer' := by
              have parties := party.symm.trans match_key.1
              exact Party.customer.inj parties
            rw [← same, ← match_key.2] at before ⊢
            rw [index, before, if_pos ⟨party, rfl⟩]
            exact found
          · cases found

/-- An account takes the key of its party and currency, which is locked. -/
theorem confined_addAccount {a : Account} {customer : Id} (mine : id ∈ t.ids)
    (party : a.party = .customer customer) (locked : t.Locked (.accountKey customer a.currency))
    (confined : convention.Confined t s v) : convention.Confined t s (v.addAccount id a) := by
  apply confined_step confined
  · intro row free known
    cases row with
    | accountKey customer' currency =>
        show (v.addAccount id a).accountOf customer' currency = v.accountOf customer' currency
        rw [accountOf_addAccount, if_neg, Option.or_none]
        rintro ⟨party', currency'⟩
        cases party.symm.trans party'
        exact free (currency' ▸ locked)
    | invoice i => exact ⟨rfl, ⟨rfl, fun _ _ => rfl⟩, rfl, fun _ _ => rfl⟩
    | document k => exact fun d found => ⟨found, ⟨rfl, fun _ _ => rfl⟩, rfl⟩
    | account a => exact ⟨fun _ mem => mem, fun _ mem => mem⟩
    | cashAccount c => exact ⟨fun _ mem => mem, fun _ mem => mem⟩
    | movement k => trivial
    | company k => rfl
    | tillKey firm => rfl
    | counter firm numberPrefix => rfl
  · refine ⟨fun _ _ found => Rows.get?_insert_of_some found, fun _ _ found => found, ?_,
      fun _ _ found => found⟩
    intro customer' currency r found
    rw [accountOf_addAccount, found]
    rfl
  · intro k foreign unused
    have different : id ≠ k := fun same => foreign (same ▸ mine)
    exact ⟨unused.document, unused.application, unused.movement,
      (Rows.get?_insert_of_ne different).trans unused.account, unused.cashAccount,
      unused.applications, unused.entries, unused.reversed⟩

theorem respects_addCashAccount {till : CashAccount} (mine : id ∈ t.ids)
    (locked : t.Locked (.tillKey till.company)) :
    convention.Respects t (Books.addCashAccount id till) v where
  rows v' rely row kept := by
    cases row with
    | tillKey firm =>
        have same : v'.defaultTill firm = v.defaultTill firm := kept
        show (v'.addCashAccount id till).defaultTill firm = _
        rw [defaultTill_addCashAccount, defaultTill_addCashAccount, same]
    | invoice i =>
        exact ⟨kept.row, ⟨kept.entries.movements, kept.entries.reversed⟩, kept.applications,
          kept.collections⟩
    | document k =>
        intro d found
        have same : SameDocument k d v v' := kept d found
        exact ⟨same.row, ⟨same.entries.movements, same.entries.reversed⟩, same.applications⟩
    | account a => exact ⟨kept.openings, kept.movements⟩
    | cashAccount c => exact ⟨kept.openings, kept.movements⟩
    | movement k => trivial
    | company k => exact kept
    | accountKey customer currency => exact kept
    | counter firm numberPrefix => exact kept
  ids v' rely k same := by
    refine ⟨same.document, same.applications, fun body => ?_, same.reversed, same.account, ?_⟩
    · exact ⟨(same.entries body).movements, (same.entries body).reversed⟩
    · unfold Books.addCashAccount
      rw [Rows.get?_insert, Rows.get?_insert, same.cashAccount]
  always v' rely := by
    have always : Always v v' := rely.always
    have key : SameKey id v v' := rely.ids id mine
    have index : v'.defaultTill till.company = v.defaultTill till.company := rely.rows _ locked
    refine ⟨always.accounts, ?_, always.live, ?_⟩
    · intro k row found
      by_cases here : id = k
      · subst here
        unfold Books.addCashAccount at found ⊢
        rwa [Rows.get?_insert, key.cashAccount, ← Rows.get?_insert]
      · have before := (Rows.get?_insert_of_ne here).symm.trans found
        exact Rows.get?_insert_of_some (always.cashAccounts k row before)
    · intro firm r found
      rw [defaultTill_addCashAccount] at found ⊢
      cases before : v.defaultTill firm with
      | some r' =>
          rw [before] at found
          rw [always.tills firm r' before]
          exact found
      | none =>
          rw [before, Option.none_or] at found
          split at found
          · rename_i match_key
            rw [← match_key.1] at before ⊢
            rw [index, before, if_pos ⟨rfl, match_key.2⟩]
            exact found
          · cases found

/-- So does the default till of a firm. -/
theorem confined_addCashAccount {till : CashAccount} (mine : id ∈ t.ids)
    (locked : t.Locked (.tillKey till.company)) (confined : convention.Confined t s v) :
    convention.Confined t s (v.addCashAccount id till) := by
  apply confined_step confined
  · intro row free known
    cases row with
    | tillKey firm =>
        show (v.addCashAccount id till).defaultTill firm = v.defaultTill firm
        rw [defaultTill_addCashAccount, if_neg, Option.or_none]
        rintro ⟨same, _⟩
        exact free (same ▸ locked)
    | invoice i => exact ⟨rfl, ⟨rfl, fun _ _ => rfl⟩, rfl, fun _ _ => rfl⟩
    | document k => exact fun d found => ⟨found, ⟨rfl, fun _ _ => rfl⟩, rfl⟩
    | account a => exact ⟨fun _ mem => mem, fun _ mem => mem⟩
    | cashAccount c => exact ⟨fun _ mem => mem, fun _ mem => mem⟩
    | movement k => trivial
    | company k => rfl
    | accountKey customer currency => rfl
    | counter firm numberPrefix => rfl
  · refine ⟨fun _ _ found => found, fun _ _ found => Rows.get?_insert_of_some found,
      fun _ _ _ found => found, ?_⟩
    intro firm r found
    rw [defaultTill_addCashAccount, found]
    rfl
  · intro k foreign unused
    have different : id ≠ k := fun same => foreign (same ▸ mine)
    exact ⟨unused.document, unused.application, unused.movement, unused.account,
      (Rows.get?_insert_of_ne different).trans unused.cashAccount, unused.applications,
      unused.entries, unused.reversed⟩

/-! ## Counters, settings, the clock -/

namespace Books

/-- A write of the clock, the firms' settings or the counters. -/
def tune (today : Date) (companies : Rows Company -> Rows Company)
    (counters : (Id -> NumberPrefix -> Nat) -> Id -> NumberPrefix -> Nat) (v : Books) : Books :=
  { v with
    today := today, companies := companies v.companies, counters := counters v.counters }

end Books

theorem respects_tune (today : Books -> Date) (companies : Rows Company -> Rows Company)
    (counters : (Id -> NumberPrefix -> Nat) -> Id -> NumberPrefix -> Nat)
    (rowwise : ∀ cs cs' : Rows Company, ∀ k, cs'.get? k = cs.get? k ->
      (companies cs').get? k = (companies cs).get? k)
    (pointwise : ∀ ns ns' firm numberPrefix, ns' firm numberPrefix = ns firm numberPrefix ->
      counters ns' firm numberPrefix = counters ns firm numberPrefix) :
    convention.Respects t (fun v => v.tune (today v) companies counters) v where
  rows v' rely row kept := by
    cases row with
    | company k => exact rowwise _ _ k kept
    | counter firm numberPrefix => exact pointwise _ _ firm numberPrefix kept
    | invoice i =>
        exact ⟨kept.row, ⟨kept.entries.movements, kept.entries.reversed⟩, kept.applications,
          kept.collections⟩
    | document k =>
        intro d found
        have same : SameDocument k d v v' := kept d found
        exact ⟨same.row, ⟨same.entries.movements, same.entries.reversed⟩, same.applications⟩
    | account a => exact ⟨kept.openings, kept.movements⟩
    | cashAccount c => exact ⟨kept.openings, kept.movements⟩
    | movement k => trivial
    | tillKey firm => exact kept
    | accountKey customer currency => exact kept
  ids v' rely k same := ⟨same.document, same.applications,
    fun body => ⟨(same.entries body).movements, (same.entries body).reversed⟩, same.reversed,
    same.account, same.cashAccount⟩
  always v' rely := ⟨rely.always.accounts, rely.always.cashAccounts, rely.always.live,
    rely.always.tills⟩

theorem confined_tune (today : Books -> Date) (companies : Rows Company -> Rows Company)
    (counters : (Id -> NumberPrefix -> Nat) -> Id -> NumberPrefix -> Nat)
    (rowwise : ∀ k, ¬ t.Locked (.company k) ->
      (companies v.companies).get? k = v.companies.get? k)
    (pointwise : ∀ firm numberPrefix, ¬ t.Locked (.counter firm numberPrefix) ->
      counters v.counters firm numberPrefix = v.counters firm numberPrefix)
    (confined : convention.Confined t s v) :
    convention.Confined t s (v.tune (today v) companies counters) := by
  apply confined_step confined
  · intro row free known
    cases row with
    | company k => exact rowwise k free
    | counter firm numberPrefix => exact pointwise firm numberPrefix free
    | invoice i => exact ⟨rfl, ⟨rfl, fun _ _ => rfl⟩, rfl, fun _ _ => rfl⟩
    | document k => exact fun d found => ⟨found, ⟨rfl, fun _ _ => rfl⟩, rfl⟩
    | account a => exact ⟨fun _ mem => mem, fun _ mem => mem⟩
    | cashAccount c => exact ⟨fun _ mem => mem, fun _ mem => mem⟩
    | movement k => trivial
    | tillKey firm => rfl
    | accountKey customer currency => rfl
  · exact ⟨fun _ _ found => found, fun _ _ found => found, fun _ _ _ found => found,
      fun _ _ found => found⟩
  · exact fun k _ unused => ⟨unused.document, unused.application, unused.movement, unused.account,
      unused.cashAccount, unused.applications, unused.entries, unused.reversed⟩

theorem respects_setCounter {firm : Id} {numberPrefix : NumberPrefix} {last : Nat} :
    convention.Respects t (Books.setCounter firm numberPrefix last) v := by
  refine respects_tune (·.today) (fun cs => cs)
    (fun ns c p => if c = firm ∧ p = numberPrefix then last else ns c p) ?_ ?_
  · exact fun _ _ _ same => same
  · intro ns ns' c p same
    rw [same]

theorem confined_setCounter {firm : Id} {numberPrefix : NumberPrefix} {last : Nat}
    (locked : t.Locked (.counter firm numberPrefix)) (confined : convention.Confined t s v) :
    convention.Confined t s (v.setCounter firm numberPrefix last) := by
  refine confined_tune (·.today) (fun cs => cs)
    (fun ns c p => if c = firm ∧ p = numberPrefix then last else ns c p) ?_ ?_ confined
  · exact fun _ _ => rfl
  · intro c p free
    apply if_neg
    rintro ⟨rfl, rfl⟩
    exact free locked

theorem respects_setClosedThrough {firm : Id} {day : Option Date} :
    convention.Respects t (Books.setClosedThrough firm day) v := by
  refine respects_tune (·.today)
    (fun cs => cs.update firm (fun c => { c with ledgerClosedThrough := day })) (fun ns => ns) ?_ ?_
  · intro cs cs' k same
    rw [Rows.get?_update, Rows.get?_update, same]
  · exact fun _ _ _ _ same => same

theorem confined_setClosedThrough {firm : Id} {day : Option Date}
    (locked : t.Locked (.company firm)) (confined : convention.Confined t s v) :
    convention.Confined t s (v.setClosedThrough firm day) := by
  refine confined_tune (·.today)
    (fun cs => cs.update firm (fun c => { c with ledgerClosedThrough := day })) (fun ns => ns) ?_ ?_
    confined
  · exact fun k free => Rows.get?_update_of_ne (fun same => free (same ▸ locked))
  · exact fun _ _ _ => rfl

theorem respects_setClock {day : Date} : convention.Respects t (Books.setClock day) v :=
  respects_tune (fun _ => day) (fun cs => cs) (fun ns => ns) (fun _ _ _ same => same) (fun _ _ _ _ same => same)

theorem confined_setClock {day : Date} (confined : convention.Confined t s v) :
    convention.Confined t s (v.setClock day) :=
  confined_tune (fun _ => day) (fun cs => cs) (fun ns => ns) (fun _ _ => rfl) (fun _ _ _ => rfl) confined

end Ledger
end Shiftlush
