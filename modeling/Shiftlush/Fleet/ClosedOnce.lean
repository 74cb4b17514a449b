import Shiftlush.Transitions
import Shiftlush.Fleet.AgreementsSound

namespace Shiftlush
namespace Fleet

open Calendar (Date)
open Transactions
open Transitions (run everyStep)

/-!
# A contract is closed once

TERMINATED and RENEWED are the statuses the services do not take a contract out
of; an expired contract may still be renewed or terminated.  Nothing keeps a
request from deciding on a contract that another has closed since it was loaded,
and an edit saves the status it has read, or any status but these two.
-/

abbrev ContractMachine := Machine Agreements Row Loaded Failure Request Unit

namespace Agreements

def isClosed (v : Agreements) (id : Nat) : Bool :=
  (v.contracts.get? id).any (fun contract => contract.status.isClosed)

def successors (v : Agreements) (id : Nat) : Rows Contract :=
  v.contracts.filter (fun r => decide (r.2.previousContract = some id))

/-- Each contract has been closed by one request at most, and has one successor
at most. -/
structure ClosedOnce (v : Agreements) : Prop where
  closings : ∀ id, v.closings.count id ≤ 1
  successors : ∀ id, (v.successors id).length ≤ 1

/-- What is closed keeps its status. -/
def Final (v v' : Agreements) : Prop :=
  ∀ id contract, v.contracts.get? id = some contract -> contract.status.isClosed = true ->
    ∃ contract', v'.contracts.get? id = some contract' ∧ contract'.status = contract.status

end Agreements

/-- The law of one step of a run. -/
def ClosesOnce (m : ContractMachine) (event : Transactions.Event Request) : Prop :=
  (m.step serve event).committed.ClosedOnce ∧ Agreements.Final m.committed (m.step serve event).committed

/-- The status an edit saves. -/
def ContractChanges.statusOver (changes : ContractChanges) (contract : Contract) : ContractStatus :=
  changes.status.getD contract.status

/-- Whether a request that has loaded what it has may commit now: the contract is
not closed, or the request leaves its status. -/
def Request.isTimely (v : Agreements) (seen : List Loaded) : Request -> Bool
  | .terminate id _ _ => !v.isClosed id
  | .renew id _ _ _ _ => !v.isClosed id
  | .expire id today => !v.isClosed id || seen.all (fun loaded => !loaded.2.isOverdue today)
  | .edit id changes => !v.isClosed id || seen.all (fun loaded =>
      (v.contracts.get? id).any (fun contract =>
        decide (changes.statusOver loaded.2 = contract.status)))

/-- No request commits on a contract that has been closed, but to leave its status. -/
def timely (m : ContractMachine) (event : Transactions.Event Request) : Bool :=
  (m.committing event).all (fun session => session.request.isTimely m.committed session.trail.seen)

/-! ## What the closings count -/

/-- A contract is closed by as many requests as its status says, and no more
successors follow it. -/
structure Counted (v : Agreements) : Prop where
  distinct : v.contracts.Distinct
  counted : ∀ id, v.closings.count id = if v.isClosed id then 1 else 0
  followed : ∀ id, (v.successors id).length ≤ v.closings.count id

/-- What has been loaded is true but for columns that may change. -/
def Remembers (v : Agreements) (loaded : Loaded) : Prop :=
  ∃ contract, v.contracts.get? loaded.1 = some contract ∧
    contract.previousContract = loaded.2.previousContract ∧
    (loaded.2.status.isClosed = true -> contract.status = loaded.2.status)

/-- No contract vanishes, changes its predecessor, or is taken out of a status
that closed it. -/
def Faithful (v v' : Agreements) : Prop :=
  ∀ id contract, v.contracts.get? id = some contract -> Remembers v' (id, contract)

variable {v v' : Agreements}

theorem Remembers.later {loaded : Loaded} (remembers : Remembers v loaded) (faithful : Faithful v v') :
    Remembers v' loaded := by
  rcases remembers with ⟨contract, found, previous, closed⟩
  rcases faithful loaded.1 contract found with ⟨contract', found', previous', closed'⟩
  refine ⟨contract', found', previous'.trans previous, ?_⟩
  intro past
  have same := closed past
  have still : contract.status.isClosed = true := by
    rw [same]
    exact past
  exact (closed' still).trans same

theorem Faithful.refl : Faithful v v := fun _ contract found => ⟨contract, found, rfl, fun _ => rfl⟩

theorem Faithful.final (faithful : Faithful v v') : Agreements.Final v v' := by
  intro id contract found closed
  rcases faithful id contract found with ⟨contract', found', _, kept⟩
  exact ⟨contract', found', kept closed⟩

theorem Counted.closedOnce (counted : Counted v) : v.ClosedOnce := by
  have once : ∀ id, v.closings.count id ≤ 1 := by
    intro id
    rw [counted.counted id]
    split
    · exact Nat.le_refl _
    · exact Nat.zero_le _
  exact ⟨once, fun id => Nat.le_trans (counted.followed id) (once id)⟩

theorem isClosed_of_get? {id : Nat} {contract : Contract} (found : v.contracts.get? id = some contract) :
    v.isClosed id = contract.status.isClosed := by
  unfold Agreements.isClosed
  rw [found, Option.any_some]

/-! ## Rewriting a contract -/

section Rewriting

variable {id : Nat} {contract : Contract} {f : Contract -> Contract}

theorem isClosed_update (found : v.contracts.get? id = some contract)
    (contracts : v'.contracts = v.contracts.update id f) (id' : Nat) :
    v'.isClosed id' = if id' = id then (f contract).status.isClosed else v.isClosed id' := by
  unfold Agreements.isClosed
  rw [contracts, Rows.get?_update]
  split
  · rename_i here
    subst here
    rw [found, Option.map_some, Option.any_some]
  · rfl

/-- A row that keeps its predecessor counts as it did. -/
theorem successors_update (distinct : v.contracts.Distinct)
    (found : v.contracts.get? id = some contract)
    (previous : (f contract).previousContract = contract.previousContract)
    (contracts : v'.contracts = v.contracts.update id f) (id' : Nat) :
    (v'.successors id').length ≤ (v.successors id').length := by
  unfold Agreements.successors
  rw [contracts]
  apply Rows.length_filter_update
  intro row mem passes
  have same : row = contract := by
    have listed := Rows.get?_of_mem distinct mem
    rw [found] at listed
    exact (Option.some.inj listed).symm
  subst same
  dsimp only at passes ⊢
  rw [previous] at passes
  exact passes

theorem faithful_update (found : v.contracts.get? id = some contract)
    (previous : (f contract).previousContract = contract.previousContract)
    (kept : contract.status.isClosed = true -> (f contract).status = contract.status)
    (contracts : v'.contracts = v.contracts.update id f) : Faithful v v' := by
  intro id' row listed
  by_cases here : id' = id
  · subst here
    rw [found] at listed
    cases listed
    refine ⟨f contract, ?_, previous, kept⟩
    rw [contracts, Rows.get?_update_self, found, Option.map_some]
  · refine ⟨row, ?_, rfl, fun _ => rfl⟩
    rw [contracts, Rows.get?_update_of_ne here]
    exact listed

/-- A status is rewritten within what is closed, or within what is not. -/
theorem Counted.rewrite (counted : Counted v) (found : v.contracts.get? id = some contract)
    (previous : (f contract).previousContract = contract.previousContract)
    (kept : (f contract).status.isClosed = contract.status.isClosed)
    (contracts : v'.contracts = v.contracts.update id f) (closings : v'.closings = v.closings) :
    Counted v' := by
  refine ⟨?_, ?_, ?_⟩
  · rw [contracts]
    exact counted.distinct.update id f
  · intro id'
    rw [closings, isClosed_update found contracts, counted.counted id']
    by_cases here : id' = id
    · subst here
      rw [if_pos rfl, kept, isClosed_of_get? found]
    · rw [if_neg here]
  · intro id'
    rw [closings]
    exact Nat.le_trans (successors_update counted.distinct found previous contracts id')
      (counted.followed id')

/-- An open contract is closed. -/
theorem Counted.close (counted : Counted v) (found : v.contracts.get? id = some contract)
    (unclosed : contract.status.isClosed = false)
    (previous : (f contract).previousContract = contract.previousContract)
    (closed : (f contract).status.isClosed = true)
    (contracts : v'.contracts = v.contracts.update id f) (closings : v'.closings = id :: v.closings) :
    Counted v' ∧ v'.successors id = [] ∧ v'.closings.count id = 1 := by
  have none_before : v.closings.count id = 0 := by
    rw [counted.counted id, isClosed_of_get? found, unclosed]
    rfl
  have one_now : v'.closings.count id = 1 := by
    rw [closings, List.count_cons_self, none_before]
  have fewer := successors_update counted.distinct found previous contracts
  have nobody : v'.successors id = [] := by
    have before := counted.followed id
    have now := fewer id
    apply List.eq_nil_of_length_eq_zero
    omega
  refine ⟨⟨?_, ?_, ?_⟩, nobody, one_now⟩
  · rw [contracts]
    exact counted.distinct.update id f
  · intro id'
    rw [isClosed_update found contracts]
    by_cases here : id' = id
    · subst here
      rw [if_pos rfl, closed, one_now]
      rfl
    · rw [if_neg here, closings, List.count_cons_of_ne (Ne.symm here), counted.counted id']
  · intro id'
    by_cases here : id' = id
    · subst here
      rw [nobody]
      exact Nat.zero_le _
    · rw [closings, List.count_cons_of_ne (Ne.symm here)]
      exact Nat.le_trans (fewer id') (counted.followed id')

/-- The successor of a contract that has just been closed. -/
theorem Counted.follow (counted : Counted v) {successor : Nat} {row : Contract}
    (fresh : v.contracts.get? successor = none) (follows : row.previousContract = some id)
    (unclosed : row.status.isClosed = false) (nobody : v.successors id = [])
    (once : v.closings.count id = 1) (contracts : v'.contracts = v.contracts.insert successor row)
    (closings : v'.closings = v.closings) : Counted v' := by
  refine ⟨?_, ?_, ?_⟩
  · rw [contracts]
    exact counted.distinct.insert fresh
  · intro id'
    rw [closings, counted.counted id']
    unfold Agreements.isClosed
    rw [contracts]
    by_cases here : successor = id'
    · subst here
      rw [Rows.get?_insert_self fresh, fresh, Option.any_none, Option.any_some, unclosed]
    · rw [Rows.get?_insert_of_ne here]
  · intro id'
    rw [closings]
    have before := counted.followed id'
    unfold Agreements.successors at before nobody ⊢
    rw [contracts]
    unfold Rows.insert
    rw [List.filter_append, List.length_append, List.filter_singleton, follows]
    by_cases here : id = id'
    · subst here
      rw [nobody, once]
      simp
    · have other : decide (some id = some id') = false := by simpa using here
      rw [other]
      exact before

end Rewriting

/-! ## One commit -/

variable {v'' : Agreements} {seen : List Loaded} {q : Request}

/-- A renewal of an open contract, as two saves. -/
theorem Renews.counted {id successor : Nat} {contract : Contract} (renews : Renews id successor v v')
    (counted : Counted v) (found : v.contracts.get? id = some contract)
    (unclosed : contract.status.isClosed = false) :
    Counted v' ∧ Faithful v v' ∧
      ∃ row, v'.contracts.get? successor = some row ∧ row.status.isClosed = false := by
  rcases renews.contracts with ⟨row, follows, draft, contracts⟩
  have other : successor ≠ id := by
    intro same
    have absent := renews.fresh
    rw [same, found] at absent
    cases absent
  rw [Rows.update_insert other] at contracts
  let between : Agreements :=
    { v with contracts := v.contracts.update id Contract.renewed, closings := id :: v.closings }
  have written : between.contracts = v.contracts.update id Contract.renewed := rfl
  have closes : between.closings = id :: v.closings := rfl
  rcases counted.close (f := Contract.renewed) found unclosed rfl rfl written closes with
    ⟨closed, nobody, once⟩
  have fresh : (v.contracts.update id Contract.renewed).get? successor = none := by
    rw [Rows.get?_update_of_ne other]
    exact renews.fresh
  have open_row : row.status.isClosed = false := by
    rw [draft]
    rfl
  have kept : contract.status.isClosed = true -> contract.renewed.status = contract.status := by
    rw [unclosed]
    intro impossible
    cases impossible
  refine ⟨closed.follow fresh follows open_row nobody once contracts renews.closings, ?_, row, ?_, open_row⟩
  · intro id' row' listed
    rcases faithful_update (f := Contract.renewed) found rfl kept written id' row' listed with
      ⟨contract', found', rest⟩
    refine ⟨contract', ?_, rest⟩
    rw [contracts]
    exact Rows.get?_insert_of_some found'
  · rw [contracts, Rows.get?_insert_self fresh]

/-- What an edit saves is closed if and only if the contract is. -/
theorem statusOver_closed {id : Nat} {changes : ContractChanges} {contract loaded : Contract}
    (checked : checkContract changes.status (changes.apply loaded) = .ok ())
    (found : v.contracts.get? id = some contract) (remembers : Remembers v (id, loaded))
    (inTime : contract.status.isClosed = true -> changes.statusOver loaded = contract.status) :
    (changes.statusOver loaded).isClosed = contract.status.isClosed := by
  cases past : contract.status.isClosed with
  | true => rw [inTime past, past]
  | false =>
      have selectable : changes.status.any ContractStatus.isClosed = false := by
        unfold checkContract at checked
        split at checked
        · cases checked
        · rename_i selectable
          exact Bool.eq_false_iff.mpr selectable
      unfold ContractChanges.statusOver
      cases given : changes.status with
      | some status =>
          rw [given] at selectable
          exact selectable
      | none =>
          rw [Option.getD_none]
          by_contra closed
          rcases remembers with ⟨contract', found', _, same⟩
          dsimp only at found' same
          rw [found] at found'
          cases found'
          have was : loaded.status.isClosed = true := Bool.not_eq_false _ ▸ closed
          rw [same was, was] at past
          cases past

/-- What is overdue is closed in time only while it is open. -/
theorem free_of_overdue {id : Nat} {today : Date} {loaded : Contract} (overdue : loaded.isOverdue today = true)
    (inTime : (Request.expire id today).isTimely v [(id, loaded)] = true) : (!v.isClosed id) = true := by
  unfold Request.isTimely at inTime
  rw [Bool.or_eq_true] at inTime
  rcases inTime with free | idle
  · exact free
  · rw [List.all_cons, overdue] at idle
    cases idle

theorem Counted.congr (counted : Counted v) (contracts : v'.contracts = v.contracts)
    (closings : v'.closings = v.closings) : Counted v' where
  distinct := by
    rw [contracts]
    exact counted.distinct
  counted id := by
    unfold Agreements.isClosed
    rw [contracts, closings]
    exact counted.counted id
  followed id := by
    unfold Agreements.successors
    rw [contracts, closings]
    exact counted.followed id

theorem Change.counted (change : Change q v v' seen) (counted : Counted v)
    (remembers : ∀ loaded ∈ seen, Remembers v loaded) (inTime : q.isTimely v seen = true) :
    Counted v' ∧ Faithful v v' := by
  have unclosed_of : ∀ {id : Nat} {contract : Contract}, v.contracts.get? id = some contract ->
      (!v.isClosed id) = true -> contract.status.isClosed = false := by
    intro id contract found free
    rw [isClosed_of_get? found] at free
    simpa using free
  cases change with
  | @terminates id terminatedAt reason loaded _ _ contracts closings =>
      rcases remembers (id, loaded) List.mem_cons_self with ⟨contract, found, _, _⟩
      have unclosed := unclosed_of found inTime
      refine ⟨(counted.close found unclosed rfl rfl contracts closings).1, ?_⟩
      apply faithful_update found rfl _ contracts
      rw [unclosed]
      intro impossible
      cases impossible
  | @renews id startDate endDate carryElevators copyTerms loaded successor _ _ renews =>
      rcases remembers (id, loaded) List.mem_cons_self with ⟨contract, found, _, _⟩
      have both := renews.counted counted found (unclosed_of found inTime)
      exact ⟨both.1, both.2.1⟩
  | @autoRenews id today loaded successor _ s' _ overdue renews closings activated =>
      rcases remembers (id, loaded) List.mem_cons_self with ⟨contract, found, _, _⟩
      have free := free_of_overdue overdue inTime
      rcases renews.counted counted found (unclosed_of found free) with ⟨now, faithful, row, listed, unclosed⟩
      rcases activated with same | contracts
      · refine ⟨?_, ?_⟩
        · exact now.congr same closings
        · intro id' row' before
          rcases faithful id' row' before with ⟨contract', found', rest⟩
          exact ⟨contract', by rw [same]; exact found', rest⟩
      · have kept : row.activated.status.isClosed = row.status.isClosed := by
          rw [unclosed]
          rfl
        refine ⟨now.rewrite listed rfl kept contracts closings, ?_⟩
        intro id' row' before
        apply (faithful id' row' before).later
        apply faithful_update listed rfl _ contracts
        rw [unclosed]
        intro impossible
        cases impossible
  | @expires id today loaded _ _ overdue contracts closings =>
      rcases remembers (id, loaded) List.mem_cons_self with ⟨contract, found, _, _⟩
      have free := free_of_overdue overdue inTime
      have unclosed := unclosed_of found free
      have kept : contract.expired.status.isClosed = contract.status.isClosed := by
        rw [unclosed]
        rfl
      refine ⟨counted.rewrite found rfl kept contracts closings, ?_⟩
      apply faithful_update found rfl _ contracts
      rw [unclosed]
      intro impossible
      cases impossible
  | @rests id today loaded _ _ _ contracts closings =>
      refine ⟨counted.congr contracts closings, ?_⟩
      · intro id' row listed
        exact ⟨row, by rw [contracts]; exact listed, rfl, fun _ => rfl⟩
  | @edits id changes loaded _ _ checked contracts closings =>
      have remembered := remembers (id, loaded) List.mem_cons_self
      rcases remembered with ⟨contract, found, previous, _⟩
      dsimp only at found previous
      have same : contract.status.isClosed = true -> changes.statusOver loaded = contract.status := by
        intro past
        unfold Request.isTimely at inTime
        dsimp only at inTime
        rw [isClosed_of_get? found, past, found] at inTime
        simpa using inTime
      have kept := statusOver_closed checked found (remembers (id, loaded) List.mem_cons_self) same
      exact ⟨counted.rewrite found previous.symm kept contracts closings,
        faithful_update found previous.symm same contracts⟩

/-- A commit that is out of time breaks the law. -/
theorem Change.timely (change : Change q v v' seen) (counted : Counted v)
    (remembers : ∀ loaded ∈ seen, Remembers v loaded) (once : v'.ClosedOnce)
    (final : Agreements.Final v v') : q.isTimely v seen = true := by
  have closing : ∀ id, v'.closings = id :: v.closings -> (!v.isClosed id) = true := by
    intro id closings
    have least := once.closings id
    rw [closings, List.count_cons_self, counted.counted id] at least
    cases closed : v.isClosed id with
    | false => rfl
    | true =>
        rw [closed, if_pos rfl] at least
        omega
  cases change with
  | terminates _ closings => exact closing _ closings
  | renews renews => exact closing _ renews.closings
  | @autoRenews id today loaded successor _ s' _ _ renews closings _ =>
      have free := closing id (closings.trans renews.closings)
      unfold Request.isTimely
      dsimp only
      rw [free, Bool.true_or]
  | @expires id today loaded _ _ _ contracts _ =>
      rcases remembers (id, loaded) List.mem_cons_self with ⟨contract, found, _, _⟩
      dsimp only at found
      unfold Request.isTimely
      dsimp only
      rw [isClosed_of_get? found]
      cases past : contract.status.isClosed with
      | false => rfl
      | true =>
          rcases final id contract found past with ⟨contract', found', same⟩
          rw [contracts, Rows.get?_update_self, found, Option.map_some] at found'
          cases found'
          rw [← same] at past
          cases past
  | rests idle _ _ =>
      unfold Request.isTimely
      dsimp only
      rw [List.all_cons, idle]
      exact Bool.or_true _
  | @edits id changes loaded _ _ _ contracts _ =>
      rcases remembers (id, loaded) List.mem_cons_self with ⟨contract, found, _, _⟩
      dsimp only at found
      unfold Request.isTimely
      dsimp only
      rw [isClosed_of_get? found, found]
      cases past : contract.status.isClosed with
      | false => rfl
      | true =>
          rcases final id contract found past with ⟨contract', found', same⟩
          rw [contracts, Rows.get?_update_self, found, Option.map_some] at found'
          cases found'
          have saved : changes.statusOver loaded = contract.status := same
          simp [saved]

/-! ## Every run -/

/-- Contracts that nobody has closed yet, and the next primary key. -/
structure Opening where
  agreements : Agreements
  nextId : Nat
  distinct : agreements.contracts.Distinct
  below : ∀ id, nextId ≤ id -> agreements.Unused id
  unclosed : ∀ r ∈ agreements.contracts, r.2.status.isClosed = false ∧ r.2.previousContract = none
  closings : agreements.closings = []

def Opening.machine (start : Opening) : ContractMachine := .init start.agreements start.nextId

/-- What every request has loaded is remembered. -/
def Known (m : ContractMachine) : Prop :=
  ∀ i session, m.Running i session -> ∀ loaded ∈ session.trail.seen, Remembers m.committed loaded

structure Orderly (m : ContractMachine) : Prop where
  consistent : Consistent convention Change m
  counted : Counted m.committed
  known : Known m

theorem Orderly.start (start : Opening) : Orderly start.machine := by
  have nobody : ∀ i session, ¬ start.machine.Running i session := by
    intro i session running
    have empty : ([] : List (Slot Agreements Row Loaded Failure Request Unit))[i]? =
      some (.running session) := running
    cases empty
  refine ⟨.init convention Change trivial start.below, ⟨start.distinct, ?_, ?_⟩, ?_⟩
  · intro id
    have free : start.agreements.isClosed id = false := by
      unfold Agreements.isClosed
      cases found : start.agreements.contracts.get? id with
      | none => rfl
      | some contract => exact (start.unclosed _ (Rows.mem_of_get? found)).1
    change start.agreements.closings.count id = if start.agreements.isClosed id then 1 else 0
    rw [start.closings, free]
    rfl
  · intro id
    have nothing : start.agreements.successors id = [] := by
      unfold Agreements.successors
      rw [List.filter_eq_nil_iff]
      intro r mem follows
      rw [(start.unclosed r mem).2] at follows
      cases of_decide_eq_true follows
    change (start.agreements.successors id).length ≤ _
    rw [nothing]
    exact Nat.zero_le _
  · intro i session running
    exact absurd running (nobody i session)

section Step

variable {m : ContractMachine} {event : Transactions.Event Request}

theorem change_of_committing (orderly : Orderly m)
    {session : Session Agreements Row Loaded Failure Request Unit}
    (commits : m.committing event = some session) : ∃ i, m.Running i session ∧
      Change session.request m.committed (m.step serve event).committed session.trail.seen := by
  rcases Machine.committing_spec commits with ⟨i, _, running, answer, rest⟩
  refine ⟨i, running, ?_⟩
  rw [Machine.step_committed, commits]
  exact (orderly.consistent.commit ⟨running, answer, rest⟩).1

theorem committed_of_none (still : m.committing event = none) :
    (m.step serve event).committed = m.committed := by
  rw [Machine.step_committed, still]
  rfl

theorem orderly_step (orderly : Orderly m) (inTime : timely m event = true) :
    Orderly (m.step serve event) ∧ Faithful m.committed (m.step serve event).committed := by
  have both : Counted (m.step serve event).committed ∧
      Faithful m.committed (m.step serve event).committed := by
    cases commits : m.committing event with
    | none =>
        rw [committed_of_none commits]
        exact ⟨orderly.counted, .refl⟩
    | some session =>
        rcases change_of_committing orderly commits with ⟨i, running, change⟩
        unfold timely at inTime
        rw [commits, Option.all_some] at inTime
        exact change.counted orderly.counted (orderly.known i session running) inTime
  refine ⟨⟨orderly.consistent.step disciplined event, both.1, ?_⟩, both.2⟩
  intro j session running loaded mem
  rcases orderly.consistent.noted_step serve event running mem with ⟨before, was, old⟩ | ⟨noted, still⟩
  · exact (orderly.known j before was loaded old).later both.2
  · rw [committed_of_none still]
    exact ⟨loaded.2, noted, rfl, fun _ => rfl⟩

theorem timely_of_closesOnce (orderly : Orderly m) (law : ClosesOnce m event) :
    timely m event = true := by
  unfold timely
  cases commits : m.committing event with
  | none => rfl
  | some session =>
      rcases change_of_committing orderly commits with ⟨i, running, change⟩
      rw [Option.all_some]
      exact change.timely orderly.counted (orderly.known i session running) law.1 law.2

end Step

/-- One contract, in force for a year. -/
def oneContract : Opening where
  agreements := ⟨[(0, {
    customer := 0, status := .active, scope := .maintenanceOnly, startDate := .first 24312
    endDate := (Date.first 24324).previous, pricingType := .perElevator, monthlyFee := some 100000
    currency := "TRY", vatRate := some 2000, billingPeriod := .monthly, autoRenew := false
    renewalNoticeDays := 60, previousContract := none, terminatedAt := none, terminationReason := ""
    notes := "" })], [], [], []⟩
  nextId := 1
  distinct := by decide
  below := by
    intro id beyond
    refine ⟨Rows.get?_eq_none.mpr ?_, rfl⟩
    intro row mem
    have same := congrArg Prod.fst (List.mem_singleton.mp mem)
    dsimp only at same
    omega
  unclosed := by
    intro r mem
    rw [List.mem_singleton.mp mem]
    exact ⟨rfl, rfl⟩
  closings := rfl

/-- Both load the contract before either commits. -/
def twoRenewals : List (Transactions.Event Request) :=
  let next : Request := .renew 0 (.first 24324) (.first 24336) true true
  [.arrive next, .arrive next, .advance 0, .advance 1] ++
    List.replicate 6 (.advance 0) ++ List.replicate 5 (.advance 1)

/-- A contract renewed twice, by two requests that loaded it open. -/
theorem renewed_twice :
    ¬ ClosesOnce (run (Machine.step serve) oneContract.machine twoRenewals) (.advance 1) := by
  intro law
  have two : ((((run (Machine.step serve) oneContract.machine twoRenewals).step serve
    (.advance 1)).committed).successors 0).length = 2 := by decide +kernel
  have least := law.1.successors 0
  rw [two] at least
  omega

/-- Whatever the schedule, contracts are closed once as long as no request commits
on one that has been closed but to leave its status, and no longer. -/
theorem closed_once (start : Opening) (events : List (Transactions.Event Request)) :
    (∀ before event, before ++ [event] <+: events ->
      ClosesOnce (run (Machine.step serve) start.machine before) event) ↔
      everyStep (Machine.step serve) timely start.machine events = true := by
  constructor
  · intro law
    exact Transitions.everyStep_of_stepLaw (J := Orderly) (L := ClosesOnce)
      (fun _ _ inTime orderly => (orderly_step orderly inTime).1)
      (fun _ _ orderly law => timely_of_closesOnce orderly law) (.start start) law
  · rintro inTime before event ⟨after, rfl⟩
    have sofar := (Transitions.everyStep_append.mp inTime).1
    rcases Transitions.everyStep_append.mp sofar with ⟨earlier, last⟩
    have orderly := Transitions.run_invariant_of_everyStep (J := Orderly)
      (fun _ _ inTime orderly => (orderly_step orderly inTime).1) earlier (.start start)
    rw [Transitions.everyStep_cons, Bool.and_eq_true] at last
    rcases orderly_step orderly last.1 with ⟨next, faithful⟩
    exact ⟨next.counted.closedOnce, faithful.final⟩

end Fleet
end Shiftlush
