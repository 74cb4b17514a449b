import Shiftlush.Ledger.Services

namespace Shiftlush
namespace Ledger

/-!
# What a document should post

Each document, and each issued invoice, has its *voucher*: the movements that
should stand in the books for it.  A voucher is *entered* when the movements
that name the document are exactly those, in the order of the legs, followed by
one mirror of each if the document is cancelled and by nothing otherwise.

That is all that balances need to be right: a standing voucher adds up to what
the document means, and a cancelled one to nothing.
-/

/-- One movement of a document, on an account, a cash account, or both. -/
structure Leg where
  account : Option (Id × Direction)
  cashAccount : Option (Id × CashDirection)
  deriving DecidableEq, Repr

structure Voucher where
  document : DocumentRef
  source : MovementSource
  date : Date
  amount : Cents
  legs : List Leg
  deriving DecidableEq, Repr

/-- The movement a leg of the voucher should be. -/
def Voucher.movement (w : Voucher) (firm : Id) (currency : String) (leg : Leg) : Movement :=
  { company := firm, account := leg.account, cashAccount := leg.cashAccount, date := w.date,
    amount := w.amount, currency := currency, source := w.source, document := w.document,
    reverses := none }

namespace DocumentBody

def source : DocumentBody -> MovementSource
  | .collection .. => .collection
  | .paymentOut .. => .paymentOut
  | .manualEntry .. => .manual
  | .accountTransfer .. => .transfer
  | .cashTransfer .. => .transfer
  | .accountOpening .. => .opening
  | .cashOpening .. => .opening

def legs : DocumentBody -> List Leg
  | .collection account cashAccount _ _ => [⟨some (account, .credit), some (cashAccount, .in)⟩]
  | .paymentOut account cashAccount _ _ => [⟨some (account, .debit), some (cashAccount, .out)⟩]
  | .manualEntry account direction _ => [⟨some (account, direction), none⟩]
  | .accountTransfer source target => [⟨some (source, .credit), none⟩, ⟨some (target, .debit), none⟩]
  | .cashTransfer source target => [⟨none, some (source, .out)⟩, ⟨none, some (target, .in)⟩]
  | .accountOpening account direction => [⟨some (account, direction), none⟩]
  | .cashOpening cashAccount direction => [⟨none, some (cashAccount, direction.cash)⟩]

theorem type_ne_invoice (body : DocumentBody) : body.type ≠ .invoiceDraft := by
  cases body <;> exact fun same => nomatch same

end DocumentBody

def Document.ref (id : Id) (document : Document) : DocumentRef := ⟨document.body.type, id⟩

def Document.voucher (id : Id) (document : Document) : Voucher :=
  { document := document.ref id, source := document.body.source, date := document.date,
    amount := document.amount, legs := document.body.legs }

def invoiceRef (id : Id) : DocumentRef := ⟨.invoiceDraft, id⟩

/-- The debit of an issued invoice; a zero total is not a movement. -/
def InvoiceDraft.voucher (id : Id) (draft : InvoiceDraft) (account : Id) : Voucher :=
  { document := invoiceRef id, source := .invoice, date := draft.invoiceDate.getD 0,
    amount := draft.total,
    legs := if draft.total = 0 then [] else [⟨some (account, .debit), none⟩] }

/-! ## Entered -/

/-- The movements of the voucher itself, oldest key first. -/
structure Originals (w : Voucher) (rows : Rows Movement) : Prop where
  legs : ∃ firm currency, rows.map (·.2) = w.legs.map (w.movement firm currency)
  keys : (rows.map (·.1)).Pairwise (· < ·)

/-- One mirror for each original, in their order. -/
def Mirrors (originals rows : Rows Movement) : Prop :=
  ∃ day source, rows.map (·.2) = originals.map (fun r => r.2.mirror r.1 day source)

inductive Entered (v : Books) (w : Voucher) : Bool -> Prop where
  | standing {originals} : Originals w originals -> v.movementsOf w.document = originals ->
      Entered v w false
  | cancelled {originals mirrors} : Originals w originals -> Mirrors originals mirrors ->
      v.movementsOf w.document = originals ++ mirrors -> Entered v w true

/-- Nothing but the movements that name the document matters. -/
theorem Entered.congr {v v' : Books} {w : Voucher} {cancelled : Bool}
    (same : v'.movementsOf w.document = v.movementsOf w.document) (entered : Entered v w cancelled) :
    Entered v' w cancelled := by
  cases entered with
  | standing originals rows => exact .standing originals (same.trans rows)
  | cancelled originals mirrors rows => exact .cancelled originals mirrors (same.trans rows)

/-! ## What it adds up to -/

/-- What a leg means for a side. -/
def Leg.signedOn (leg : Leg) (amount : Cents) (side : Side) : Cents :=
  match side with
  | .account id =>
      match leg.account with
      | some (account, direction) => if account = id then direction.signed amount else 0
      | none => 0
  | .cash id =>
      match leg.cashAccount with
      | some (cashAccount, direction) => if cashAccount = id then direction.signed amount else 0
      | none => 0

def Voucher.worth (w : Voucher) (side : Side) : Cents :=
  (w.legs.map (fun leg => leg.signedOn w.amount side)).sum

theorem total_movements (rows : Rows Movement) (f : Movement -> Cents) :
    Rows.total rows (fun _ m => f m) = ((rows.map (·.2)).map f).sum := by
  unfold Rows.total
  rw [List.map_map]
  rfl

theorem Voucher.signedOn_movement (w : Voucher) (firm : Id) (currency : String) (leg : Leg)
    (side : Side) : (w.movement firm currency leg).signedOn side = leg.signedOn w.amount side := by
  cases side <;> rfl

theorem Originals.total {w : Voucher} {rows : Rows Movement} (originals : Originals w rows)
    (side : Side) : Rows.total rows (fun _ m => m.signedOn side) = w.worth side := by
  rcases originals.legs with ⟨firm, currency, legs⟩
  rw [total_movements, legs, List.map_map]
  unfold Voucher.worth
  apply congrArg List.sum
  apply List.map_congr_left
  intro leg _
  exact w.signedOn_movement firm currency leg side

theorem Mirrors.total {originals rows : Rows Movement} (mirrors : Mirrors originals rows)
    (side : Side) : Rows.total rows (fun _ m => m.signedOn side) =
      -Rows.total originals (fun _ m => m.signedOn side) := by
  rcases mirrors with ⟨day, source, rows_eq⟩
  rw [total_movements, rows_eq, List.map_map]
  clear rows_eq
  induction originals with
  | nil => rfl
  | cons r originals ih =>
      rw [List.map_cons, List.sum_cons, Rows.total_cons, neg_add, ih]
      exact congrArg (· + _) (Movement.signedOn_mirror r.2 r.1 day source side)

/-- What the movements of one document add to the balance of a side. -/
theorem Entered.total {v : Books} {w : Voucher} {cancelled : Bool} (entered : Entered v w cancelled)
    (side : Side) : Rows.total (v.movementsOf w.document) (fun _ m => m.signedOn side) =
      if cancelled then 0 else w.worth side := by
  cases entered with
  | standing originals rows => rw [rows, originals.total]; rfl
  | cancelled originals mirrors rows =>
      rw [rows, Rows.total_append, mirrors.total, add_neg_cancel]
      rfl

/-! ## Originals and mirrors -/

theorem Originals.of_mem {w : Voucher} {rows : Rows Movement} (originals : Originals w rows)
    {r : Id × Movement} (mem : r ∈ rows) :
    ∃ firm currency, ∃ leg ∈ w.legs, r.2 = w.movement firm currency leg := by
  rcases originals.legs with ⟨firm, currency, legs⟩
  have listed : r.2 ∈ rows.map (·.2) := List.mem_map_of_mem mem
  rw [legs] at listed
  rcases List.mem_map.mp listed with ⟨leg, at_leg, same⟩
  exact ⟨firm, currency, leg, at_leg, same.symm⟩

/-- All originals are of one firm. -/
theorem Originals.company {w : Voucher} {rows : Rows Movement} (originals : Originals w rows) :
    ∃ firm, ∀ r ∈ rows, r.2.company = firm := by
  rcases originals.legs with ⟨firm, currency, legs⟩
  refine ⟨firm, ?_⟩
  intro r mem
  have listed : r.2 ∈ rows.map (·.2) := List.mem_map_of_mem mem
  rw [legs] at listed
  rcases List.mem_map.mp listed with ⟨leg, _, same⟩
  rw [← same]
  rfl

theorem Originals.date {w : Voucher} {rows : Rows Movement} (originals : Originals w rows)
    {r : Id × Movement} (mem : r ∈ rows) : r.2.date = w.date := by
  rcases originals.of_mem mem with ⟨_, _, _, _, same⟩
  rw [same]
  rfl

theorem Originals.not_mirror {w : Voucher} {rows : Rows Movement} (originals : Originals w rows)
    {r : Id × Movement} (mem : r ∈ rows) : r.2.reverses = none := by
  rcases originals.of_mem mem with ⟨_, _, _, _, same⟩
  rw [same]
  rfl

theorem Mirrors.of_mem {originals rows : Rows Movement} (mirrors : Mirrors originals rows)
    {r : Id × Movement} (mem : r ∈ rows) :
    ∃ o ∈ originals, r.2 = o.2.mirror o.1 r.2.date r.2.source := by
  rcases mirrors with ⟨day, source, rows_eq⟩
  have listed : r.2 ∈ rows.map (·.2) := List.mem_map_of_mem mem
  rw [rows_eq] at listed
  rcases List.mem_map.mp listed with ⟨o, at_o, same⟩
  refine ⟨o, at_o, ?_⟩
  rw [← same]
  rfl

/-- The keys the mirrors name are those of the originals. -/
theorem Mirrors.reverses {originals rows : Rows Movement} (mirrors : Mirrors originals rows) :
    rows.map (fun r => r.2.reverses) = originals.map (fun r => some r.1) := by
  rcases mirrors with ⟨day, source, rows_eq⟩
  have mapped := congrArg (List.map Movement.reverses) rows_eq
  rw [List.map_map, List.map_map] at mapped
  exact mapped

/-- In the order `reverse_document` reads them, the originals stay as they are. -/
theorem Originals.sorted {w : Voucher} {rows : Rows Movement} (originals : Originals w rows) :
    List.insertionSort Books.earlier rows = rows := by
  apply List.Pairwise.insertionSort_eq
  have keys := List.pairwise_map.mp originals.keys
  apply keys.imp_of_mem
  intro r r' mem mem' lt
  right
  rw [originals.date mem, originals.date mem']
  exact ⟨rfl, Nat.le_of_lt lt⟩

end Ledger
end Shiftlush
