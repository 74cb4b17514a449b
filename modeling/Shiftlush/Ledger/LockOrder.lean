import Shiftlush.Transactions.Deadlock
import Shiftlush.Ledger.ClosedPeriod

namespace Shiftlush
namespace Ledger

open Transactions

/-!
# The lock order

What `Order` asks of every program, read off the sessions of a run: the rows a
session holds it has locked in the documented order, and no cycle of waits
closes, unless a session of it is in the last attempt of `cancel_collection` or
cancels a transfer whose second side has the smaller key.  The second exception
is not in the LOCK ORDER comment.  `record_transfer` locks its sides in key
order, but the mirrors of `cancel_transfer` lock them in the order of the
movements, and the last theorem runs one against the other.
-/

/-! ## Locks in order -/

/-- `row` comes after the rows held, or is one of them, or is the firm's. -/
def InPlace (held : List (LockMode × Row)) (row : Row) : Prop :=
  row.isCompany = true ∨ row ∈ held.map (·.2) ∨ Follows held row

/-- Every row was in place when it was asked for; the last one stands first. -/
def Ascending : List (LockMode × Row) -> Prop
  | [] => True
  | (_, row) :: earlier => InPlace earlier row ∧ Ascending earlier

/-- The session is in the last attempt of `cancel_collection`. -/
def Late (session : Session Books Row Note LedgerError Request Unit) : Prop :=
  session.trail.retries + 1 = cancelAttempts

/-- A document's row, locked for update, whose transfer runs the wrong way. -/
def locksCrosswise (s : Books) : LockMode × Row -> Bool
  | (.update, .document id) => (s.documents.get? id).any (·.crosswise)
  | _ => false

theorem crosswise_iff {s : Books} {held : List (LockMode × Row)} :
    Crosswise s held ↔ held.any (locksCrosswise s) = true := by
  constructor
  · rintro ⟨id, d, mem, found, wrong⟩
    refine List.any_eq_true.mpr ⟨(.update, .document id), mem, ?_⟩
    simp only [locksCrosswise, found, Option.any_some, wrong]
  · intro some_crosswise
    rcases List.any_eq_true.mp some_crosswise with ⟨⟨mode, row⟩, mem, wrong⟩
    cases mode with
    | keyShare => cases wrong
    | update =>
        cases row with
        | document id =>
            simp only [locksCrosswise, Option.any_eq_true] at wrong
            rcases wrong with ⟨d, found, wrong⟩
            exact ⟨id, d, mem, found, wrong⟩
        | _ => cases wrong

instance (s : Books) (held : List (LockMode × Row)) : Decidable (Crosswise s held) :=
  decidable_of_iff _ crosswise_iff.symm

theorem Crosswise.hold {s : Books} {held : List (LockMode × Row)} (crosswise : Crosswise s held)
    (h : LockMode × Row) : Crosswise s (h :: held) := by
  rcases crosswise with ⟨id, d, mem, found, wrong⟩
  exact ⟨id, d, List.mem_cons_of_mem _ mem, found, wrong⟩

theorem Placed.inPlace {s : Books} {held : List (LockMode × Row)} {retries : Nat} {mode : LockMode}
    {row : Row} (placed : Placed s held retries mode row) :
    InPlace held row ∨ retries + 1 = cancelAttempts ∨ Crosswise s held := by
  cases placed with
  | first empty =>
      left
      right
      right
      intro h mem
      rw [empty] at mem
      cases mem
  | shared company _ => exact Or.inl (Or.inl company)
  | again mem _ => exact Or.inl (Or.inr (Or.inl (List.mem_map_of_mem (f := (·.2)) mem)))
  | next _ follows => exact Or.inl (Or.inr (Or.inr follows))
  | late last => exact Or.inr (Or.inl last)
  | crosswise wrong => exact Or.inr (Or.inr wrong)

section Sessions

variable {m : LedgerMachine} {i : Nat} {session : Session Books Row Note LedgerError Request Unit}

/-- The rows a session holds it has locked in order. -/
theorem ascending_held (ok : Consistent convention Change m) (running : m.Running i session) :
    Ascending session.trail.held ∨ Late session ∨ Crosswise m.committed session.trail.held := by
  apply ok.holds running (H := fun held =>
    Ascending held ∨ Late session ∨ Crosswise m.committed held)
  · exact Or.inl trivial
  · intro held mode row before order
    rcases before with ascending | late | crosswise
    · rcases order.placed.inPlace with here | late | crosswise
      · exact Or.inl ⟨here, ascending⟩
      · exact Or.inr (Or.inl late)
      · exact Or.inr (Or.inr (crosswise.hold _))
    · exact Or.inr (Or.inl late)
    · exact Or.inr (Or.inr (crosswise.hold _))

/-! ## Waits in order -/

/-- Nobody in the cycle of waits through `i` may ask out of order. -/
structure Regular (m : LedgerMachine) (i : Nat) : Prop where
  cycle : m.Awaits i i
  late : ∀ j session, m.Awaits i j -> m.Running j session -> ¬ Late session
  straight : ∀ j session, m.Awaits i j -> m.Running j session ->
    ¬ Crosswise m.committed session.trail.held

/-- A session in such a cycle, and what it asks for. -/
structure Asking (m : LedgerMachine) (a : Nat)
    (session : Session Books Row Note LedgerError Request Unit) (mode : LockMode) (row : Row) :
    Prop where
  asks : m.Asks a mode row
  running : m.Running a session
  settings : ∀ company, (LockMode.update, Row.company company) ∉ session.trail.held
  placed : (row.isCompany = true ∧ mode = .keyShare) ∨
    (∃ mode', (mode', row) ∈ session.trail.held ∧ (mode' = .update ∨ mode = .keyShare)) ∨
    (row.isCompany = false ∧ Follows session.trail.held row)

theorem running_unique {session session' : Session Books Row Note LedgerError Request Unit}
    (running : m.Running i session) (running' : m.Running i session') : session = session' := by
  have same := Eq.trans (Eq.symm running) running'
  cases same
  rfl

theorem Regular.asking (regular : Regular m i) (ok : Consistent convention Change m) {a : Nat}
    (there : m.Awaits i a) (back : m.Awaits a i) :
    ∃ session mode row, Asking m a session mode row := by
  rcases regular.cycle.around there back with ⟨b, waits, _⟩
  rcases Machine.waitsFor_iff.mp waits with ⟨mode, row, _, _, ⟨session, next, running, rest⟩, _⟩
  have order := ok.asks running rest
  refine ⟨session, mode, row, ⟨session, next, running, rest⟩, running, order.settings, ?_⟩
  cases order.placed with
  | first empty =>
      -- Somebody waits for a row it holds.
      rcases there.last with ⟨z, waits⟩
      rcases Machine.waitsFor_iff.mp waits with ⟨_, _, _, session', _, _, running', mem, _⟩
      rw [← running_unique running running', empty] at mem
      cases mem
  | shared company share => exact Or.inl ⟨company, share⟩
  | again mem modes => exact Or.inr (Or.inl ⟨_, mem, modes⟩)
  | next side follows => exact Or.inr (Or.inr ⟨side, follows⟩)
  | late last => exact absurd last (regular.late a session there running)
  | crosswise wrong => exact absurd wrong (regular.straight a session there running)

/-- Nobody waits for the firm's row, nor for a row he holds himself. -/
theorem Regular.follows (regular : Regular m i) (ok : Consistent convention Change m) {a : Nat}
    (there : m.Awaits i a) (back : m.Awaits a i) : ∃ session mode row,
      m.Asks a mode row ∧ m.Running a session ∧ row.isCompany = false ∧
        Follows session.trail.held row := by
  rcases regular.asking ok there back with ⟨session, mode, row, asking⟩
  refine ⟨session, mode, row, asking.asks, asking.running, ?_⟩
  rcases regular.cycle.around there back with ⟨b, waits, there_b, back_b⟩
  rcases regular.asking ok there_b back_b with ⟨session_b, _, _, asking_b⟩
  rcases Machine.waitsFor_iff.mp waits with
    ⟨mode', row', held, session', asks, different, running', mem, conflicts⟩
  rcases asks.unique asking.asks with ⟨same_mode, same_row⟩
  subst same_mode same_row
  rw [running_unique running' asking_b.running] at mem
  rcases asking.placed with ⟨company, share⟩ | ⟨mode, mine, modes⟩ | follows
  · exfalso
    rw [share] at conflicts
    cases row' with
    | company firm =>
        cases held with
        | update => exact asking_b.settings firm mem
        | keyShare => cases conflicts
    | _ => cases company
  · exfalso
    rcases modes with whole | share
    · rw [whole] at mine
      exact ok.exclusive a b session session_b different.symm asking.running asking_b.running row'
        held mine mem
    · rw [share] at conflicts
      cases held with
      | update =>
          exact ok.exclusive b a session_b session different asking_b.running asking.running row'
            mode mem mine
      | keyShare => cases conflicts
  · exact follows

theorem Regular.impossible (ok : Consistent convention Change m) : ¬ Regular m i := by
  intro regular
  refine Machine.no_cycle Row.before Row.before_trans Row.before_irrefl ?_ regular.cycle
  intro a b there waits back
  have there_b : m.Awaits i b := there.tail waits
  have back_a : m.Awaits a i := .head waits back
  rcases regular.follows ok there back_a with ⟨_, mode, row, asks, _, side, _⟩
  rcases regular.follows ok there_b back with ⟨session, mode', row', asks', running, _, follows⟩
  rcases Machine.waitsFor_iff.mp waits with ⟨_, _, held, session', asked, _, running', mem, _⟩
  rw [running_unique running' running, (asked.unique asks).2] at mem
  refine ⟨mode, mode', row, row', asks, asks', ?_⟩
  rcases follows _ mem with company | before
  · rw [side] at company
    cases company
  · exact before

end Sessions

/-! ## The law, and how it is broken -/

/-- No running session is cancelling a transfer whose second side has the
smaller key. -/
def Straight (m : LedgerMachine) : Prop :=
  ∀ i session, m.Running i session -> ¬ Crosswise m.committed session.trail.held

/-- Every session has locked its rows in order and no cycle of waits closes, the
last attempt of `cancel_collection` excepted. -/
structure LockOrder (m : LedgerMachine) : Prop where
  ascending : ∀ i session, m.Running i session -> Ascending session.trail.held ∨ Late session
  acyclic : ∀ i, m.Awaits i i ->
    ∃ j session, m.Awaits i j ∧ m.Running j session ∧ Late session

/-- Where no such transfer is being cancelled, the lock order is kept. -/
theorem lock_order_kept {s : Books} {nextId : Nat} (unposted : Unposted s nextId)
    {events : List (Event Request)}
    (straight : Straight (Machine.run serve (Machine.init s nextId) events)) :
    LockOrder (Machine.run serve (Machine.init s nextId) events) := by
  have ok := unposted.consistent.run disciplined events
  constructor
  · intro i session running
    rcases ascending_held ok running with ascending | late | crosswise
    · exact Or.inl ascending
    · exact Or.inr late
    · exact absurd crosswise (straight i session running)
  · intro i cycle
    by_contra nobody
    refine Regular.impossible ok ⟨cycle, ?_, fun j session _ running => straight j session running⟩
    exact fun j session there running late => nobody ⟨j, session, there, running, late⟩

/-- Two customers with an account each. -/
def twoAccounts : Books :=
  { smallFirm with accounts := [(1, ⟨3, .customer 7, "TRY"⟩), (2, ⟨3, .customer 8, "TRY"⟩)]
                   cashAccounts := [] }

theorem twoAccounts_unposted : Unposted twoAccounts 100 where
  documents := rfl
  applications := rfl
  movements := rfl
  drafts := by decide
  invoiceKeys := by decide
  accountKeys := by decide
  cashAccountKeys := by decide
  parties := by decide
  accountsBelow := by decide
  cashAccountsBelow := by decide

/-- A transfer between two accounts. -/
def transferred (source target : Id) : Request :=
  .recordTransfer (some .account) (.ofCents 500) 90 (some source) (some target) none none

/-- A transfer is recorded and then cancelled, while the opposite one waits
between its two sides. -/
def transferRun (source target : Id) : List (Event Request) :=
  served 0 (transferred source target) ++
    .arrive (transferred target source) :: List.replicate 3 (.advance 1) ++
    .arrive (.cancelTransfer 100) :: List.replicate 30 (.advance 2)

theorem straight_transferRun :
    LockOrder (Machine.run serve (Machine.init twoAccounts 100) (transferRun 1 2)) := by
  apply lock_order_kept twoAccounts_unposted
  have checked : (Machine.run serve (Machine.init twoAccounts 100) (transferRun 1 2)).everyRunning
      (fun session => decide ¬ Crosswise (Machine.run serve (Machine.init twoAccounts 100)
        (transferRun 1 2)).committed session.trail.held) = true := by decide +kernel
  exact fun i session running => of_decide_eq_true (Machine.everyRunning_spec checked running)

theorem lock_order_broken : ¬ ∀ s nextId events, Unposted s nextId ->
    LockOrder (Machine.run serve (Machine.init s nextId) events) := by
  intro law
  have order := law twoAccounts 100 (transferRun 2 1) twoAccounts_unposted
  have first : (Machine.run serve (Machine.init twoAccounts 100) (transferRun 2 1)).waitsFor 1 2 =
      true := by decide +kernel
  have second : (Machine.run serve (Machine.init twoAccounts 100) (transferRun 2 1)).waitsFor 2 1 =
      true := by decide +kernel
  have early : (Machine.run serve (Machine.init twoAccounts 100) (transferRun 2 1)).everyRunning
      (fun session => decide (session.trail.retries + 1 ≠ cancelAttempts)) = true := by
    decide +kernel
  rcases order.acyclic 1 (.tail (.single first) second) with ⟨_, session, _, running, late⟩
  exact of_decide_eq_true (Machine.everyRunning_spec early running) late

end Ledger
end Shiftlush
