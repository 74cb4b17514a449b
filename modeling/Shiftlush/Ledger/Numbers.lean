import Shiftlush.Ledger.Footprint

namespace Shiftlush
namespace Ledger

open Transactions

/-!
# Document numbers

A number is drawn under the lock of its counter, and the document that carries
it is inserted in the same transaction.  Everything else leaves numbers and
counters alone, so whatever is committed is numbered from 1 to the counter.
-/

namespace Books

/-- The numbers a firm's documents carry under a prefix, in the order the documents came in. -/
def numbers (v : Books) (company : Id) (numberPrefix : NumberPrefix) : List Nat :=
  v.documents.filterMap (fun r =>
    if r.2.company = company then r.2.body.number? numberPrefix else none)

end Books

/-- Numbers and counters are as they were. -/
structure SameNumbers (v w : Books) : Prop where
  numbers : ∀ company numberPrefix, w.numbers company numberPrefix = v.numbers company numberPrefix
  counters : w.counters = v.counters

namespace SameNumbers

theorem refl (v : Books) : SameNumbers v v := ⟨fun _ _ => rfl, rfl⟩

theorem trans {u v w : Books} (first : SameNumbers u v) (second : SameNumbers v w) : SameNumbers u w where
  numbers company numberPrefix :=
    (second.numbers company numberPrefix).trans (first.numbers company numberPrefix)
  counters := second.counters.trans first.counters

/-- Neither the documents nor the counters are written. -/
theorem of_documents {v w : Books} (documents : w.documents = v.documents)
    (counters : w.counters = v.counters) : SameNumbers v w where
  numbers company numberPrefix := by
    unfold Books.numbers
    rw [documents]
  counters := counters

end SameNumbers

/-- An update that numbers nothing. -/
def Quiet (f : Books -> Books) : Prop := ∀ v, SameNumbers v (f v)

theorem numbers_addDocument (v : Books) (id : Id) (document : Document) (company : Id)
    (numberPrefix : NumberPrefix) : (v.addDocument id document).numbers company numberPrefix =
      v.numbers company numberPrefix ++
        (if document.company = company then document.body.number? numberPrefix else none).toList := by
  unfold Books.numbers Books.addDocument Rows.insert
  rw [List.filterMap_append]
  congr 1

theorem quiet_addDocument {id : Id} {document : Document}
    (unnumbered : ∀ numberPrefix, document.body.number? numberPrefix = none) :
    Quiet (Books.addDocument id document) := by
  intro v
  refine ⟨?_, rfl⟩
  intro company numberPrefix
  rw [numbers_addDocument, unnumbered, ite_self]
  exact List.append_nil _

/-- A cancelled document keeps its number. -/
theorem quiet_stampCancelled {id : Id} {day : Date} : Quiet (Books.stampCancelled id day) := by
  intro v
  refine ⟨?_, rfl⟩
  intro company numberPrefix
  unfold Books.numbers Books.stampCancelled Rows.update
  rw [List.filterMap_map]
  congr 1
  funext r
  rw [Function.comp_apply]
  split
  · rfl
  · rfl

/-! ## Programs that number nothing -/

/-- No statement of the program draws a number or inserts a numbered document. -/
abbrev Calm {α : Type} (again : Prop) (p : LedgerProg α) : Prop := p.Writes Quiet again

instance : Covers Quiet where
  post _ _ _ := fun _ => .of_documents rfl rfl
  mirror _ _ _ _ _ := fun _ => .of_documents rfl rfl
  updateInvoice _ _ := fun _ => .of_documents rfl rfl
  addDocument _ _ unnumbered := quiet_addDocument unnumbered
  stampCancelled _ _ := quiet_stampCancelled
  addApplication _ _ := fun _ => .of_documents rfl rfl
  addAccount _ _ := fun _ => .of_documents rfl rfl
  addCashAccount _ _ := fun _ => .of_documents rfl rfl
  setClosedThrough _ _ := fun _ => .of_documents rfl rfl
  setClock _ := fun _ => .of_documents rfl rfl

/-! ## Programs that draw a number -/

/-- One document came in, under the number after the counter's. -/
structure Issues (company : Id) (numberPrefix : NumberPrefix) (v w : Books) : Prop where
  counters : w.counters =
    (v.setCounter company numberPrefix (v.counters company numberPrefix + 1)).counters
  numbers : ∀ company' numberPrefix', w.numbers company' numberPrefix' =
    v.numbers company' numberPrefix' ++ (if company' = company ∧ numberPrefix' = numberPrefix then
      [v.counters company numberPrefix + 1] else [])

/-- What a transaction does to the numbers. -/
def Numbering (v w : Books) : Prop :=
  SameNumbers v w ∨ ∃ company numberPrefix, Issues company numberPrefix v w

theorem Numbering.quiet {u v : Books} (numbering : Numbering u v) {f : Books -> Books} (quiet : Quiet f) :
    Numbering u (f v) := by
  have same := quiet v
  rcases numbering with before | ⟨company, numberPrefix, issues⟩
  · exact Or.inl (before.trans same)
  · refine Or.inr ⟨company, numberPrefix, same.counters.trans issues.counters, ?_⟩
    intro company' numberPrefix'
    rw [same.numbers, issues.numbers]

section Programs

variable {s : Books} {t : Trail Books Row Note} {α : Type}

theorem ends_same {p : LedgerProg α} (calm : Calm False p)
    (here : SameNumbers s (t.writes s)) :
    Ends convention p s t (fun s' _ t' => SameNumbers s' (t'.writes s')) :=
  calm.ends (J := fun s g => SameNumbers s (g s)) here (fun _ _ _ quiet before => before.trans (quiet _))
    (fun _ s _ => .refl s)

theorem ends_numbering (again : Prop) {p : LedgerProg α} (calm : Calm again p)
    (here : Numbering s (t.writes s)) :
    Ends convention p s t (fun s' _ t' => Numbering s' (t'.writes s')) :=
  calm.ends (J := fun s g => Numbering s (g s)) here (fun _ _ _ quiet before => before.quiet quiet)
    (fun _ s _ => Or.inl (.refl s))

theorem ends_calm (again : Prop) {p : LedgerProg α} (calm : Calm again p)
    (here : SameNumbers s (t.writes s)) :
    Ends convention p s t (fun s' _ t' => Numbering s' (t'.writes s')) :=
  ends_numbering again calm (Or.inl here)

/-- A number is drawn, and the document inserted that carries it. -/
theorem ends_numbered {company : Id} {numberPrefix : NumberPrefix} (document : Nat -> Document)
    (own : ∀ number, (document number).company = company)
    (carries : ∀ number numberPrefix', (document number).body.number? numberPrefix' =
      if numberPrefix' = numberPrefix then some number else none)
    {rest : Id -> LedgerProg α} (calm : ∀ id, Calm False (rest id)) (here : SameNumbers s (t.writes s)) :
    Ends convention (do
      let number ← nextNumber company numberPrefix
      let id ← fresh
      write (Books.addDocument id (document number))
      rest id) s t (fun s' _ t' => Numbering s' (t'.writes s')) := by
  have drawn : Ends convention (nextNumber company numberPrefix) s t (fun s' number t' =>
      number = s'.counters company numberPrefix + 1 ∧
        t'.writes s' = (t.writes s).setCounter company numberPrefix number ∧ s = s') := by
    have last : (t.writes s).counters company numberPrefix = s.counters company numberPrefix := by
      rw [here.counters]
    refine ⟨?_, trivial⟩
    rintro _ ⟨⟩
    refine ⟨?_, ?_, rfl⟩
    · exact congrArg (· + 1) last
    · rfl
  refine drawn.bind ?_
  rintro _ number t' ⟨rfl, view, rfl⟩
  have keyed : Ends convention (fresh : LedgerProg Id) s t' (fun s' _ t'' => s = s' ∧ t''.writes s = t'.writes s) := by
    intro id _
    exact ⟨rfl, rfl⟩
  refine keyed.bind ?_
  rintro _ id t'' ⟨rfl, view'⟩
  have inserted : Ends convention
      (write (Books.addDocument id (document (s.counters company numberPrefix + 1))) : LedgerProg Unit) s t'' (fun s' _ t => Numbering s' (t.writes s')) := by
    refine Or.inr ⟨company, numberPrefix, ?_, ?_⟩
    · rw [Trail.write_writes, view', view]
      unfold Books.addDocument Books.setCounter
      dsimp only
      rw [here.counters]
    · intro company' numberPrefix'
      have before : ((t.writes s).setCounter company numberPrefix
          (s.counters company numberPrefix + 1)).numbers company' numberPrefix' =
            s.numbers company' numberPrefix' := here.numbers company' numberPrefix'
      rw [Trail.write_writes, view', view, numbers_addDocument, before, own, carries]
      congr 1
      by_cases firm : company' = company
      · by_cases same : numberPrefix' = numberPrefix
        · simp [firm, same]
        · simp [firm, same]
      · simp [firm, Ne.symm firm]
  refine inserted.bind ?_
  intro s' _ t numbering
  exact ends_numbering False (calm id) numbering

theorem ends_recordCollection {account : Id × Account} {cashAccount : Id × CashAccount} {amount : Decimal}
    {method : Option PaymentMethod} {date : Date} {applies : List (Id × Decimal)}
    (here : SameNumbers s (t.writes s)) :
    Ends convention (recordCollection account cashAccount amount method date applies) s t
      (fun s' _ t' => Numbering s' (t'.writes s')) := by
  refine (ends_same .require here).bind ?_
  intro s _ t here
  refine (ends_same (writes_checkMethod _) here).bind ?_
  intro s method t here
  refine (ends_same (writes_checkAmount _) here).bind ?_
  intro s cents t here
  refine (ends_same (writes_lockInvoices _) here).bind ?_
  intro s _ t here
  refine ends_numbered (fun number =>
    { company := account.2.company, body := .collection account.1 cashAccount.1 number method,
      amount := cents, date := date, cancelledAt := none }) (fun _ => rfl) ?_ ?_ here
  · intro number numberPrefix
    cases numberPrefix with
    | collection => rfl
    | paymentOut => rfl
  · intro id
    exact .bind (writes_applyTo _ _ _ _ _) (fun _ => .bind (writes_post _ _ _ _ _ _ _ _ _) (fun _ =>
      .bind (writes_syncInvoices _) (fun _ => trivial)))

theorem ends_recordPaymentOut {account : Id × Account} {cashAccount : Id × CashAccount} {amount : Decimal}
    {method : Option PaymentMethod} {date : Date} (here : SameNumbers s (t.writes s)) :
    Ends convention (recordPaymentOut account cashAccount amount method date) s t
      (fun s' _ t' => Numbering s' (t'.writes s')) := by
  refine (ends_same .require here).bind ?_
  intro s _ t here
  refine (ends_same (writes_checkMethod _) here).bind ?_
  intro s method t here
  refine (ends_same (writes_checkAmount _) here).bind ?_
  intro s cents t here
  refine ends_numbered (fun number =>
    { company := account.2.company, body := .paymentOut account.1 cashAccount.1 number method,
      amount := cents, date := date, cancelledAt := none }) (fun _ => rfl) ?_ ?_ here
  · intro number numberPrefix
    cases numberPrefix with
    | collection => rfl
    | paymentOut => rfl
  · intro id
    exact .bind (writes_post _ _ _ _ _ _ _ _ _) (fun _ => trivial)

theorem ends_markPaid {id : Id} {paidOn : Date} {cashAccount : Option (Id × CashAccount)}
    {method : Option PaymentMethod} (here : SameNumbers s (t.writes s)) :
    Ends convention (markPaid id paidOn cashAccount method) s t
      (fun s' _ t' => Numbering s' (t'.writes s')) := by
  refine (ends_same (writes_lockInvoice _) here).bind ?_
  intro s draft t here
  refine (ends_same .observe here).bind ?_
  intro s remaining t here
  refine (ends_same .require here).bind ?_
  intro s _ t here
  refine (ends_same (writes_tillFor _ _) here).bind ?_
  intro s till t here
  refine (ends_same .observe here).bind ?_
  intro s remaining t here
  refine (ends_same (writes_accountForCustomer _ _ _) here).bind ?_
  intro s account t here
  exact ends_recordCollection here

/-- Every request numbers one document after the counter, or none. -/
theorem ends_serve (q : Request) (s : Books) :
    Ends convention (serve q) s (.start 0) (fun s' _ t => Numbering s' (t.writes s')) := by
  have here : SameNumbers s ((Trail.start 0 : Trail Books Row Note).writes s) := .refl s
  have service : Ends convention q.service s (.start 0) (fun s' _ t => Numbering s' (t.writes s')) := by
    cases q with
    | recordCollection account cashAccount amount method date applies =>
        refine (ends_same (writes_findAccount _) here).bind ?_
        intro s account t here
        refine (ends_same (writes_findCashAccount _) here).bind ?_
        intro s till t here
        exact ends_recordCollection here
    | recordPaymentOut account cashAccount amount method date =>
        refine (ends_same (writes_findAccount _) here).bind ?_
        intro s account t here
        refine (ends_same (writes_findCashAccount _) here).bind ?_
        intro s till t here
        exact ends_recordPaymentOut here
    | markPaid invoice paidOn cashAccount method =>
        refine (ends_same (writes_findOptional writes_findCashAccount _) here).bind ?_
        intro s till t here
        exact ends_markPaid here
    | applyCollection collection applies =>
        exact ends_calm False (writes_applyCollection _ _) here
    | cancelCollection collection => exact ends_calm True (writes_cancelCollection _ _) here
    | recordManualEntry account direction amount date reason =>
        exact ends_calm False (.bind (writes_findAccount _) (fun _ =>
          writes_recordManualEntry _ _ _ _ _)) here
    | recordTransfer kind amount date fromAccount toAccount fromCash toCash =>
        exact ends_calm False (.bind (writes_findOptional writes_findAccount _) (fun _ =>
          .bind (writes_findOptional writes_findAccount _) (fun _ =>
            .bind (writes_findOptional writes_findCashAccount _) (fun _ =>
              .bind (writes_findOptional writes_findCashAccount _) (fun _ =>
                writes_recordTransfer _ _ _ _ _ _ _))))) here
    | recordOpening direction amount date account cashAccount =>
        exact ends_calm False (.bind (writes_findOptional writes_findAccount _) (fun _ =>
          .bind (writes_findOptional writes_findCashAccount _) (fun _ => writes_recordOpening _ _ _ _ _))) here
    | cancelPaymentOut payment => exact ends_calm False (writes_cancelDocument _ _) here
    | cancelManualEntry entry => exact ends_calm False (writes_cancelDocument _ _) here
    | cancelTransfer transfer => exact ends_calm False (writes_cancelDocument _ _) here
    | cancelOpening opening => exact ends_calm False (writes_cancelDocument _ _) here
    | issue invoice number date => exact ends_calm False (writes_issue _ _ _) here
    | cancelInvoice invoice reason => exact ends_calm False (writes_cancelInvoice _ _) here
    | setClosedThrough company day => exact ends_calm False (writes_setClosedThrough _ _) here
    | today day =>
        exact ends_calm False (.bind (.write (Covers.setClock _)) (fun _ => trivial)) here
  refine service.bind ?_
  intro s written t numbering
  exact ends_numbering False (writes_checkForeignKeys written) numbering

end Programs

/-! ## The law -/

/-- Under every prefix a firm's documents carry the numbers from 1 to its counter. -/
def Consecutive (v : Books) : Prop :=
  ∀ company numberPrefix, v.numbers company numberPrefix = List.range' 1 (v.counters company numberPrefix)

theorem Consecutive.numbering {v w : Books} (consecutive : Consecutive v) (numbering : Numbering v w) :
    Consecutive w := by
  intro company numberPrefix
  rcases numbering with same | ⟨company', numberPrefix', issues⟩
  · rw [same.numbers, same.counters, consecutive]
  · rw [issues.numbers, issues.counters, consecutive]
    unfold Books.setCounter
    dsimp only
    split
    · rename_i here
      rw [here.1, here.2, List.range'_concat, Nat.one_mul, Nat.add_comm 1]
    · exact List.append_nil _

/-- The counters of the firms have given out nothing. -/
structure Unnumbered (s : Books) (nextId : Nat) : Prop extends Unposted s nextId where
  counters : ∀ company numberPrefix, s.counters company numberPrefix = 0

theorem Unnumbered.consecutive {s : Books} {nextId : Nat} (unnumbered : Unnumbered s nextId) :
    Consecutive s := by
  intro company numberPrefix
  unfold Books.numbers
  rw [unnumbered.documents, unnumbered.counters]
  rfl

/-- Whatever requests interleave, and however they end, the documents committed
carry the numbers from 1 to the counter, each once. -/
theorem numbers_consecutive {s : Books} {nextId : Nat} (unnumbered : Unnumbered s nextId)
    (events : List (Event Request)) :
    Consecutive (Machine.run serve (Machine.init s nextId) events).committed := by
  have numbered := disciplined.and (fun q s _ => ends_serve q s)
  have start : Consistent convention (fun q s s' seen => Change q s s' seen ∧ Numbering s s')
      (Machine.init s nextId : Machine Books Row Note LedgerError Request Unit) :=
    .init _ _ unnumbered.inv (fun _ above => unnumbered.unused above)
  refine start.invariant numbered unnumbered.consecutive ?_ events
  intro _ _ _ _ _ consecutive changed
  exact consecutive.numbering changed.2

theorem smallFirm_unnumbered : Unnumbered smallFirm 100 :=
  { smallFirm_unposted with counters := fun _ _ => rfl }

/-- Three first collections at once, the one that draws first lost before it commits. -/
def firstCollections : List (Event Request) :=
  let collect : Request := .recordCollection 1 2 (.ofCents 500) (some .cash) 95 []
  [.arrive collect, .arrive collect, .arrive collect] ++ List.replicate 9 (.advance 0) ++
    List.replicate 30 (.advance 1) ++ [.lose 0] ++ List.replicate 30 (.advance 2) ++
    List.replicate 30 (.advance 1)

theorem firstCollections_consecutive :
    Consecutive (Machine.run serve (Machine.init smallFirm 100) firstCollections).committed ∧
      (Machine.run serve (Machine.init smallFirm 100) firstCollections).committed.numbers 3 .collection =
        [1, 2] :=
  ⟨numbers_consecutive smallFirm_unnumbered firstCollections, by decide +kernel⟩

end Ledger
end Shiftlush
