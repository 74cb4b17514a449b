import Shiftlush.Transactions.Convention
import Shiftlush.Ledger.Transitions

namespace Shiftlush
namespace Ledger

open Transactions

/-!
# What the ledger's locks protect

The convention behind the LOCK ORDER comment of `apps.ledger.services`, as the
code follows it.

- An invoice: its row, its entry, the applications on it and the collections
  behind them.  `cancel_collection` therefore locks every invoice it paid.
- A document: its row, its entry, the applications from it.
- An account or a cash account: nothing is added to it.  Reversals take things
  away without its lock, which is why a check made under it stays good.
- A counter or an entry of a unique index: itself.
-/

/-! ## What a holder finds unchanged -/

structure SameEntries (ref : DocumentRef) (v v' : Books) : Prop where
  movements : v'.movementsOf ref = v.movementsOf ref
  reversed : ∀ r ∈ v.movementsOf ref, v'.isReversed r.1 = v.isReversed r.1

structure SameInvoice (id : Id) (v v' : Books) : Prop where
  row : v'.invoices.get? id = v.invoices.get? id
  entries : SameEntries (invoiceRef id) v v'
  applications : v'.applicationsOn id = v.applicationsOn id
  collections : ∀ r ∈ v.applicationsOn id,
    v'.documents.get? r.2.collection = v.documents.get? r.2.collection

structure SameDocument (id : Id) (d : Document) (v v' : Books) : Prop where
  row : v'.documents.get? id = some d
  entries : SameEntries (d.ref id) v v'
  applications : v'.applicationsOf id = v.applicationsOf id

structure NoLater (side : Side) (v v' : Books) : Prop where
  openings : ∀ o ∈ v'.standingOpenings side, o ∈ v.standingOpenings side
  movements : ∀ r ∈ v'.unreversedOn side, r ∈ v.unreversedOn side

/-- What the holder of a row finds unchanged. -/
def Row.kept : Row -> Books -> Books -> Prop
  | .company id, v, v' => v'.companies.get? id = v.companies.get? id
  | .invoice id, v, v' => SameInvoice id v v'
  | .document id, v, v' => ∀ d, v.documents.get? id = some d -> SameDocument id d v v'
  | .tillKey firm, v, v' => v'.defaultTill firm = v.defaultTill firm
  | .accountKey customer currency, v, v' =>
      v'.accountOf customer currency = v.accountOf customer currency
  | .counter firm numberPrefix, v, v' =>
      v'.counters firm numberPrefix = v.counters firm numberPrefix
  | .movement _, _, _ => True
  | .account id, v, v' => NoLater (.account id) v v'
  | .cashAccount id, v, v' => NoLater (.cash id) v v'

/-- What the owner of a fresh key finds unchanged. -/
structure SameKey (id : Id) (v v' : Books) : Prop where
  document : v'.documents.get? id = v.documents.get? id
  applications : v'.applicationsOf id = v.applicationsOf id
  entries : ∀ body : DocumentBody, SameEntries ⟨body.type, id⟩ v v'
  reversed : v'.isReversed id = v.isReversed id
  account : v'.accounts.get? id = v.accounts.get? id
  cashAccount : v'.cashAccounts.get? id = v.cashAccounts.get? id

/-- Accounts are never closed, and no customer's account is replaced. -/
structure Always (v v' : Books) : Prop where
  accounts : ∀ id a, v.accounts.get? id = some a -> v'.accounts.get? id = some a
  cashAccounts : ∀ id a, v.cashAccounts.get? id = some a -> v'.cashAccounts.get? id = some a
  live : ∀ customer currency r, v.accountOf customer currency = some r ->
    v'.accountOf customer currency = some r
  tills : ∀ company r, v.defaultTill company = some r -> v'.defaultTill company = some r

/-- No row has the key or refers to it. -/
structure Unused (id : Id) (v : Books) : Prop where
  document : v.documents.get? id = none
  application : v.applications.get? id = none
  movement : v.movements.get? id = none
  account : v.accounts.get? id = none
  cashAccount : v.cashAccounts.get? id = none
  applications : v.applicationsOf id = []
  entries : ∀ body : DocumentBody, v.movementsOf ⟨body.type, id⟩ = []
  reversed : v.isReversed id = false

/-! ## The lock order -/

/-- The kinds of row in the documented order, the two unique indexes between
documents and counters. -/
def Row.kind : Row -> Nat
  | .invoice _ => 0
  | .document _ => 1
  | .tillKey _ => 2
  | .accountKey _ _ => 3
  | .counter _ _ => 4
  | .movement _ => 5
  | .account _ => 6
  | .cashAccount _ => 7
  | .company _ => 8

def Row.key : Row -> Nat
  | .invoice id => id
  | .document id => id
  | .movement id => id
  | .account id => id
  | .cashAccount id => id
  | .company id => id
  | .tillKey _ => 0
  | .accountKey _ _ => 0
  | .counter _ _ => 0

/-- Kinds in order, and keys in order within a kind. -/
def Row.before (row row' : Row) : Prop :=
  row.kind < row'.kind ∨ (row.kind = row'.kind ∧ row.key < row'.key)

instance (row row' : Row) : Decidable (row.before row') :=
  inferInstanceAs (Decidable (_ ∨ (_ ∧ _)))

theorem Row.before_trans {a b c : Row} (first : a.before b) (second : b.before c) : a.before c := by
  unfold Row.before at *
  omega

theorem Row.before_irrefl (row : Row) : ¬ row.before row := by
  unfold Row.before
  omega

def Row.isCompany : Row -> Bool
  | .company _ => true
  | _ => false

/-- A transfer whose second side has the smaller key: its mirrors lock their
sides the wrong way round. -/
def Document.crosswise (d : Document) : Bool :=
  match d.body with
  | .accountTransfer source target => decide (target < source)
  | .cashTransfer source target => decide (target < source)
  | _ => false

/-- The session is cancelling such a transfer. -/
def Crosswise (s : Books) (held : List (LockMode × Row)) : Prop :=
  ∃ id d, (LockMode.update, Row.document id) ∈ held ∧ s.documents.get? id = some d ∧
    d.crosswise = true

/-- Every row held comes before this one. -/
def Follows (held : List (LockMode × Row)) (row : Row) : Prop :=
  ∀ h ∈ held, h.2.isCompany = true ∨ h.2.before row

inductive Placed (s : Books) (held : List (LockMode × Row)) (retries : Nat) (mode : LockMode)
    (row : Row) : Prop where
  /-- Nothing else is held. -/
  | first : held = [] -> Placed s held retries mode row
  /-- The firm's row, which movements only share. -/
  | shared : row.isCompany = true -> mode = .keyShare -> Placed s held retries mode row
  | again {mode'} : (mode', row) ∈ held -> mode' = .update ∨ mode = .keyShare ->
      Placed s held retries mode row
  | next : row.isCompany = false -> Follows held row -> Placed s held retries mode row
  /-- The last attempt of `cancel_collection`. -/
  | late : retries + 1 = cancelAttempts -> Placed s held retries mode row
  | crosswise : Crosswise s held -> Placed s held retries mode row

/-- When a session of the ledger asks for a row.  Only `set_closed_through`
holds the firm's row for itself, and it asks for nothing more. -/
structure Order (s : Books) (held : List (LockMode × Row)) (retries : Nat) (mode : LockMode)
    (row : Row) : Prop where
  settings : ∀ company, (LockMode.update, Row.company company) ∉ held
  placed : Placed s held retries mode row

/-! ## The convention -/

def noted (s : Books) : Note -> Prop
  | .dateOpen company day => ∃ row, s.companies.get? company = some row ∧ row.opens day = true

theorem SameEntries.refl (ref : DocumentRef) (v : Books) : SameEntries ref v v :=
  ⟨rfl, fun _ _ => rfl⟩

theorem SameEntries.trans {ref : DocumentRef} {u v w : Books} (first : SameEntries ref u v)
    (second : SameEntries ref v w) : SameEntries ref u w where
  movements := second.movements.trans first.movements
  reversed r mem :=
    (second.reversed r (first.movements.symm ▸ mem)).trans (first.reversed r mem)

theorem Row.kept_refl (row : Row) (v : Books) : row.kept v v := by
  cases row with
  | invoice id => exact ⟨rfl, .refl _ v, rfl, fun _ _ => rfl⟩
  | document id => exact fun d found => ⟨found, .refl _ v, rfl⟩
  | account id => exact ⟨fun _ mem => mem, fun _ mem => mem⟩
  | cashAccount id => exact ⟨fun _ mem => mem, fun _ mem => mem⟩
  | movement id => trivial
  | company id => rfl
  | tillKey company => rfl
  | accountKey customer currency => rfl
  | counter company numberPrefix => rfl

theorem Row.kept_trans {row : Row} {u v w : Books} (first : row.kept u v) (second : row.kept v w) :
    row.kept u w := by
  cases row with
  | invoice id =>
      refine ⟨second.row.trans first.row, first.entries.trans second.entries,
        second.applications.trans first.applications, ?_⟩
      intro r mem
      have mem' : r ∈ v.applicationsOn id := first.applications.symm ▸ mem
      exact (second.collections r mem').trans (first.collections r mem)
  | document id =>
      intro d found
      have before := first d found
      have after := second d before.row
      exact ⟨after.row, before.entries.trans after.entries,
        after.applications.trans before.applications⟩
  | account id =>
      exact ⟨fun o mem => first.openings o (second.openings o mem),
        fun r mem => first.movements r (second.movements r mem)⟩
  | cashAccount id =>
      exact ⟨fun o mem => first.openings o (second.openings o mem),
        fun r mem => first.movements r (second.movements r mem)⟩
  | movement id => trivial
  | company id => exact Eq.trans second first
  | tillKey company => exact Eq.trans second first
  | accountKey customer currency => exact Eq.trans second first
  | counter company numberPrefix => exact Eq.trans second first

theorem Always.trans {u v w : Books} (first : Always u v) (second : Always v w) : Always u w where
  accounts id a found := second.accounts id a (first.accounts id a found)
  cashAccounts id a found := second.cashAccounts id a (first.cashAccounts id a found)
  live customer currency r found := second.live _ _ r (first.live customer currency r found)
  tills company r found := second.tills company r (first.tills company r found)

theorem Unused.sameKey {id : Id} {v w : Books} (before : Unused id v) (after : Unused id w) :
    SameKey id v w where
  document := after.document.trans before.document.symm
  applications := after.applications.trans before.applications.symm
  entries body := by
    refine ⟨(after.entries body).trans (before.entries body).symm, ?_⟩
    intro r mem
    rw [before.entries] at mem
    cases mem
  reversed := after.reversed.trans before.reversed.symm
  account := after.account.trans before.account.symm
  cashAccount := after.cashAccount.trans before.cashAccount.symm

/-- The convention of the ledger. -/
def convention : Convention Books Row Note where
  inv := Inv
  kept := Row.kept
  keptId := SameKey
  always := Always
  unused := Unused
  order := Order
  noted := noted
  kept_refl := Row.kept_refl
  always_refl _ := ⟨fun _ _ found => found, fun _ _ found => found, fun _ _ _ found => found,
    fun _ _ found => found⟩
  unused_kept _ _ _ := Unused.sameKey

end Ledger
end Shiftlush
