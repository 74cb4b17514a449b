import Shiftlush.Ledger.Discipline

namespace Shiftlush
namespace Ledger

open Transactions

/-!
# Runs of the ledger

A firm starts with accounts, tills and invoice drafts, and nothing posted.
From there any requests may arrive at any time, their sessions interleave
statement by statement, and any session may be lost.  Every state committed in
such a run satisfies `Inv`.
-/

/-- Accounts, tills and drafts, but no document yet; `nextId` is above every
primary key, and the unique keys of the accounts hold.  No draft has a negative
total: a contract whose fee is below zero can make one, but `post` takes no such
amount, so `issue` always refuses it and it never reaches the ledger. -/
structure Unposted (s : Books) (nextId : Nat) : Prop where
  documents : s.documents = []
  applications : s.applications = []
  movements : s.movements = []
  drafts : ∀ r ∈ s.invoices, r.2.status = .draft ∧ r.2.cancelledAt = none ∧ 0 ≤ r.2.total
  invoiceKeys : s.invoices.Distinct
  accountKeys : s.accounts.Distinct
  cashAccountKeys : s.cashAccounts.Distinct
  parties : (s.accounts.map (fun r => (r.2.party, r.2.currency))).Nodup
  accountsBelow : ∀ r ∈ s.accounts, r.1 < nextId
  cashAccountsBelow : ∀ r ∈ s.cashAccounts, r.1 < nextId

/-- Books some run commits. -/
def Reachable (v : Books) : Prop :=
  ∃ s nextId events, Unposted s nextId ∧
    (Machine.run serve (Machine.init s nextId) events).committed = v

/-- With one account to a party and currency, the customer's account is found. -/
theorem oneAccount_of_parties {v : Books}
    (parties : (v.accounts.map (fun r => (r.2.party, r.2.currency))).Nodup) : OneAccount v := by
  intro id a customer found party
  have mem : (id, a) ∈ v.accounts := Rows.mem_of_get? found
  unfold Books.accountOf
  revert parties mem
  induction v.accounts with
  | nil =>
      intro _ mem
      cases mem
  | cons r rows ih =>
      intro parties mem
      rw [List.map_cons, List.nodup_cons] at parties
      rcases List.mem_cons.mp mem with here | there
      · rw [List.find?_cons_of_pos]
        · exact congrArg some here.symm
        · rw [← here]
          exact decide_eq_true ⟨party, rfl⟩
      · rw [List.find?_cons_of_neg]
        · exact ih parties.2 there
        · intro same
          have key : (r.2.party, r.2.currency) = (a.party, a.currency) := by
            rcases of_decide_eq_true same with ⟨party', currency'⟩
            rw [party', currency', party]
          apply parties.1
          rw [key]
          exact List.mem_map_of_mem (f := fun r => (r.2.party, r.2.currency)) there

namespace Unposted

variable {s : Books} {nextId : Nat}

theorem no_movements (unposted : Unposted s nextId) (ref : DocumentRef) :
    s.movementsOf ref = [] := by
  unfold Books.movementsOf
  rw [unposted.movements]
  rfl

theorem no_document (unposted : Unposted s nextId) (id : Id) : s.documents.get? id = none := by
  rw [unposted.documents]
  rfl

theorem draft (unposted : Unposted s nextId) {id : Id} {i : InvoiceDraft}
    (found : s.invoices.get? id = some i) : i.standing = false := by
  have draft := (unposted.drafts _ (Rows.mem_of_get? found)).1
  unfold InvoiceDraft.standing
  rw [draft]
  rfl

theorem no_openings (unposted : Unposted s nextId) (side : Side) :
    s.standingOpenings side = [] := by
  unfold Books.standingOpenings
  rw [unposted.documents]
  rfl

theorem sound (unposted : Unposted s nextId) : SoundBooks s where
  movementKeys := by
    rw [unposted.movements]
    exact List.nodup_nil
  documentKeys := by
    rw [unposted.documents]
    exact List.nodup_nil
  invoiceKeys := unposted.invoiceKeys
  accountKeys := unposted.accountKeys
  cashAccountKeys := unposted.cashAccountKeys
  documents id d found := by
    rw [unposted.no_document] at found
    cases found
  invoices id i found := .unposted (unposted.draft found) (unposted.no_movements _)
  marked id i found := by
    rcases unposted.drafts _ (Rows.mem_of_get? found) with ⟨status, cancelled, _⟩
    rw [status, cancelled]
    rfl
  known r mem := by
    rw [unposted.movements] at mem
    cases mem
  currencies r mem := by
    rw [unposted.movements] at mem
    cases mem
  accounts := oneAccount_of_parties unposted.parties
  applied r mem := by
    rw [unposted.applications] at mem
    cases mem
  collected id i found standing := by
    rw [unposted.draft found] at standing
    cases standing
  unpaid id i _ _ r mem := by
    have listed := List.mem_of_mem_filter mem
    rw [unposted.applications] at listed
    cases listed
  allocated id d found := by
    rw [unposted.no_document] at found
    cases found
  openings side := by
    rw [unposted.no_openings]
    exact Nat.zero_le 1
  openingFirst side o mem := by
    rw [unposted.no_openings] at mem
    cases mem

theorem inv (unposted : Unposted s nextId) : Inv s :=
  { unposted.sound with
    synced := by
      intro id i found standing
      rw [unposted.draft found] at standing
      cases standing }

theorem unused (unposted : Unposted s nextId) {id : Id} (above : nextId ≤ id) : Unused id s where
  document := unposted.no_document id
  application := by
    rw [unposted.applications]
    rfl
  movement := by
    rw [unposted.movements]
    rfl
  account := by
    rw [Rows.get?_eq_none]
    exact fun a mem => Nat.not_lt.mpr above (unposted.accountsBelow (id, a) mem)
  cashAccount := by
    rw [Rows.get?_eq_none]
    exact fun a mem => Nat.not_lt.mpr above (unposted.cashAccountsBelow (id, a) mem)
  applications := by
    unfold Books.applicationsOf
    rw [unposted.applications]
    rfl
  entries body := unposted.no_movements _
  reversed := by
    unfold Books.isReversed
    rw [unposted.movements]
    rfl

/-- Where every run starts. -/
theorem consistent (unposted : Unposted s nextId) :
    Consistent convention Change (Machine.init s nextId : Machine Books Row Note LedgerError
      Request Unit) :=
  .init convention Change unposted.inv (fun _ above => unposted.unused above)

end Unposted

theorem Reachable.inv {v : Books} (reachable : Reachable v) : Inv v := by
  rcases reachable with ⟨s, nextId, events, unposted, rfl⟩
  exact (unposted.consistent.run disciplined events).inv

/-! ## A small firm -/

/-- One customer with an account, one till, one draft of 100.00 and VAT. -/
def smallFirm : Books :=
  { today := 100
    companies := [(3, ⟨none⟩)]
    accounts := [(1, ⟨3, .customer 7, "TRY"⟩)]
    cashAccounts := [(2, ⟨3, .default, "TRY", true⟩)]
    invoices := [(20, ⟨3, 7, "TRY", 2000, [⟨10000, false, none, false⟩], 0, 0, 0, .draft, "", none,
      none, none, ""⟩)]
    documents := [], applications := [], movements := [], counters := fun _ _ => 0 }

theorem smallFirm_unposted : Unposted smallFirm 100 where
  documents := rfl
  applications := rfl
  movements := rfl
  drafts := by decide
  invoiceKeys := by decide
  accountKeys := by decide
  cashAccountKeys := by decide
  parties := by decide
  accountsBelow := by decide
  cashAccountsBelow := by decide

/-- A request served to its end, nothing else moving. -/
def served (session : Nat) (q : Request) : List (Event Request) :=
  .arrive q :: List.replicate 60 (.advance session)

/-- An opening balance, an invoice issued and part paid, a collection cancelled. -/
def smallRun : List (Event Request) :=
  served 0 (.recordOpening (some .debit) (.ofCents 1000) 80 (some 1) none) ++
    served 1 (.issue 20 "A-1" 90) ++
    served 2 (.recordCollection 1 2 (.ofCents 5000) (some .cash) 95 [(20, .ofCents 5000)]) ++
    served 3 (.recordCollection 1 2 (.ofCents 2000) (some .card) 96 []) ++
    served 4 (.cancelCollection 106)

def smallBooks : Books := (Machine.run serve (Machine.init smallFirm 100) smallRun).committed

theorem smallBooks_reachable : Reachable smallBooks :=
  ⟨smallFirm, 100, smallRun, smallFirm_unposted, rfl⟩

end Ledger
end Shiftlush
