import Shiftlush.Transactions.Program

namespace Shiftlush
namespace Transactions

/-!
# The interleaving machine

`READ COMMITTED`, one statement at a time.  Every session reads the rows
committed at the moment of the statement with its own writes applied to them;
its writes reach the committed rows when it commits, all at once.  A lock is
granted when no other session holds the row in a conflicting mode, and is held
until the session ends.  A session may also be lost at any point (a crash, a
dropped connection), which rolls it back.
-/

variable {S R N E Q A : Type}

/-- What a transaction has done so far. -/
structure Trail (S R N : Type) where
  held : List (LockMode × R)
  /-- The primary keys it has drawn. -/
  ids : List Nat
  /-- Its own writes, not yet committed. -/
  writes : S -> S
  /-- What its stale reads left behind. -/
  seen : List N
  /-- The attempts given up before this one. -/
  retries : Nat

namespace Trail

def start (retries : Nat) : Trail S R N := ⟨[], [], id, [], retries⟩

def hold (t : Trail S R N) (mode : LockMode) (row : R) : Trail S R N :=
  { t with held := (mode, row) :: t.held }

def draw (t : Trail S R N) (id : Nat) : Trail S R N := { t with ids := id :: t.ids }

def write (t : Trail S R N) (update : S -> S) : Trail S R N :=
  { t with writes := fun s => update (t.writes s) }

def see (t : Trail S R N) (notes : List N) : Trail S R N := { t with seen := notes ++ t.seen }

/-- Held in the mode that excludes every other session. -/
def Locked (t : Trail S R N) (row : R) : Prop := (LockMode.update, row) ∈ t.held

@[simp] theorem start_held (n : Nat) : (start n : Trail S R N).held = [] := rfl
@[simp] theorem start_ids (n : Nat) : (start n : Trail S R N).ids = [] := rfl
@[simp] theorem start_writes (n : Nat) (s : S) : (start n : Trail S R N).writes s = s := rfl
@[simp] theorem start_seen (n : Nat) : (start n : Trail S R N).seen = [] := rfl
@[simp] theorem start_retries (n : Nat) : (start n : Trail S R N).retries = n := rfl

@[simp] theorem hold_held (t : Trail S R N) (mode : LockMode) (row : R) :
    (t.hold mode row).held = (mode, row) :: t.held := rfl
@[simp] theorem hold_ids (t : Trail S R N) (mode : LockMode) (row : R) :
    (t.hold mode row).ids = t.ids := rfl
@[simp] theorem hold_writes (t : Trail S R N) (mode : LockMode) (row : R) :
    (t.hold mode row).writes = t.writes := rfl
@[simp] theorem hold_seen (t : Trail S R N) (mode : LockMode) (row : R) :
    (t.hold mode row).seen = t.seen := rfl
@[simp] theorem hold_retries (t : Trail S R N) (mode : LockMode) (row : R) :
    (t.hold mode row).retries = t.retries := rfl

@[simp] theorem draw_held (t : Trail S R N) (id : Nat) : (t.draw id).held = t.held := rfl
@[simp] theorem draw_ids (t : Trail S R N) (id : Nat) : (t.draw id).ids = id :: t.ids := rfl
@[simp] theorem draw_writes (t : Trail S R N) (id : Nat) : (t.draw id).writes = t.writes := rfl
@[simp] theorem draw_seen (t : Trail S R N) (id : Nat) : (t.draw id).seen = t.seen := rfl
@[simp] theorem draw_retries (t : Trail S R N) (id : Nat) :
    (t.draw id).retries = t.retries := rfl

@[simp] theorem write_held (t : Trail S R N) (f : S -> S) : (t.write f).held = t.held := rfl
@[simp] theorem write_ids (t : Trail S R N) (f : S -> S) : (t.write f).ids = t.ids := rfl
@[simp] theorem write_writes (t : Trail S R N) (f : S -> S) (s : S) :
    (t.write f).writes s = f (t.writes s) := rfl
@[simp] theorem write_seen (t : Trail S R N) (f : S -> S) : (t.write f).seen = t.seen := rfl
@[simp] theorem write_retries (t : Trail S R N) (f : S -> S) :
    (t.write f).retries = t.retries := rfl

@[simp] theorem see_held (t : Trail S R N) (notes : List N) : (t.see notes).held = t.held := rfl
@[simp] theorem see_ids (t : Trail S R N) (notes : List N) : (t.see notes).ids = t.ids := rfl
@[simp] theorem see_writes (t : Trail S R N) (notes : List N) : (t.see notes).writes = t.writes := rfl
@[simp] theorem see_seen (t : Trail S R N) (notes : List N) :
    (t.see notes).seen = notes ++ t.seen := rfl
@[simp] theorem see_retries (t : Trail S R N) (notes : List N) :
    (t.see notes).retries = t.retries := rfl

end Trail

theorem locked_hold {t : Trail S R N} {mode : LockMode} {row : R} :
    ∀ row', t.Locked row' -> (t.hold mode row).Locked row' :=
  fun _ locked => List.mem_cons_of_mem _ locked

theorem mem_draw {t : Trail S R N} {id : Nat} : ∀ id' ∈ t.ids, id' ∈ (t.draw id).ids :=
  fun _ mem => List.mem_cons_of_mem _ mem

/-- A request being served: the transaction it is in, from its first statement
(`attempt`), and what is left of it. -/
structure Session (S R N E Q A : Type) where
  request : Q
  attempt : Prog S R N E A
  rest : Prog S R N E A
  trail : Trail S R N

inductive Slot (S R N E Q A : Type) where
  | running (session : Session S R N E Q A)
  | committed (answer : A)
  | refused (error : E)
  | lost

structure Machine (S R N E Q A : Type) where
  committed : S
  slots : List (Slot S R N E Q A)
  /-- Keys are drawn in order and never twice, also by sessions that roll back. -/
  nextId : Nat

/-- One step of the world: a request arrives, a session moves, a session is lost. -/
inductive Event (Q : Type) where
  | arrive (request : Q)
  | advance (session : Nat)
  | lose (session : Nat)
  deriving DecidableEq, Repr

namespace Machine

def init (s : S) (nextId : Nat) : Machine S R N E Q A := ⟨s, [], nextId⟩

section Step

variable [DecidableEq R]

/-- Whether a session's locks keep `row` from being locked in `mode`. -/
def holdsAgainst (mode : LockMode) (row : R) : Slot S R N E Q A -> Bool
  | .running session => session.trail.held.any (fun h => decide (h.2 = row) && h.1.conflicts mode)
  | _ => false

def blocked (m : Machine S R N E Q A) (i : Nat) (mode : LockMode) (row : R) : Bool :=
  (m.slots.eraseIdx i).any (holdsAgainst mode row)

def setSlot (m : Machine S R N E Q A) (i : Nat) (slot : Slot S R N E Q A) : Machine S R N E Q A :=
  { m with slots := m.slots.set i slot }

/-- The next statement of one running session. -/
def advance (m : Machine S R N E Q A) (i : Nat) (session : Session S R N E Q A) :
    Machine S R N E Q A :=
  let view := session.trail.writes m.committed
  match session.rest with
  | .done answer => { m.setSlot i (.committed answer) with committed := view }
  | .raise error => m.setSlot i (.refused error)
  | .rollback next =>
      m.setSlot i (.running { session with
        attempt := next, rest := next, trail := .start (session.trail.retries + 1) })
  | .lock mode row next =>
      if m.blocked i mode row then m
      else m.setSlot i (.running { session with rest := next, trail := session.trail.hold mode row })
  | .fetch query next missing =>
      match query view with
      | none => m.setSlot i (.running { session with rest := missing })
      | some answer => m.setSlot i (.running { session with rest := next answer })
  | .peek query log next =>
      let answer := query view
      m.setSlot i (.running
        { session with rest := next answer, trail := session.trail.see (log answer) })
  | .fresh next =>
      { m.setSlot i (.running
          { session with rest := next m.nextId, trail := session.trail.draw m.nextId }) with
        nextId := m.nextId + 1 }
  | .write update next =>
      m.setSlot i (.running { session with rest := next, trail := session.trail.write update })

/-- `serve` is the program of each request. -/
def step (serve : Q -> Prog S R N E A) (m : Machine S R N E Q A) :
    Event Q -> Machine S R N E Q A
  | .arrive request =>
      { m with slots := m.slots ++ [.running ⟨request, serve request, serve request, .start 0⟩] }
  | .advance i =>
      match m.slots[i]? with
      | some (.running session) => m.advance i session
      | _ => m
  | .lose i =>
      match m.slots[i]? with
      | some (.running _) => m.setSlot i .lost
      | _ => m

/-- Any schedule whatever. -/
def run (serve : Q -> Prog S R N E A) : Machine S R N E Q A -> List (Event Q) ->
    Machine S R N E Q A
  | m, [] => m
  | m, event :: events => run serve (m.step serve event) events

theorem run_append (serve : Q -> Prog S R N E A) (m : Machine S R N E Q A)
    (first second : List (Event Q)) :
    run serve m (first ++ second) = run serve (run serve m first) second := by
  induction first generalizing m with
  | nil => rfl
  | cons event events ih => exact ih (m.step serve event)

end Step

/-- `session` is running in slot `i`. -/
def Running (m : Machine S R N E Q A) (i : Nat) (session : Session S R N E Q A) : Prop :=
  m.slots[i]? = some (.running session)

/-- A test of every running session. -/
def everyRunning (m : Machine S R N E Q A) (test : Session S R N E Q A -> Bool) : Bool :=
  m.slots.all (fun slot =>
    match slot with
    | .running session => test session
    | _ => true)

theorem everyRunning_spec {m : Machine S R N E Q A} {test : Session S R N E Q A -> Bool}
    (passes : m.everyRunning test = true) {i : Nat} {session : Session S R N E Q A}
    (running : m.Running i session) : test session = true :=
  List.all_eq_true.mp passes _ (List.mem_of_getElem? running)

/-- The commit of `session` in slot `i` is the next thing to happen. -/
def Commits (m : Machine S R N E Q A) (i : Nat) (session : Session S R N E Q A) : Prop :=
  m.Running i session ∧ ∃ answer, session.rest = .done answer

section Facts

theorem blocked_eq_false [DecidableEq R] {m : Machine S R N E Q A} {i : Nat} {mode : LockMode} {row : R}
    (free : m.blocked i mode row = false) {j : Nat} (different : j ≠ i)
    {session : Session S R N E Q A} (running : m.Running j session)
    {held : LockMode} (holds : (held, row) ∈ session.trail.held) :
    held.conflicts mode = false := by
  have member : Slot.running session ∈ m.slots.eraseIdx i :=
    List.mem_eraseIdx_iff_getElem?.mpr ⟨j, different, running⟩
  have passes := List.any_eq_false.mp free _ member
  have passes : session.trail.held.any
      (fun h => decide (h.2 = row) && h.1.conflicts mode) = false := by
    simpa only [holdsAgainst, Bool.not_eq_true] using passes
  have passes := List.any_eq_false.mp passes _ holds
  simpa only [decide_true, Bool.true_and, Bool.not_eq_true] using passes

theorem running_set {m : Machine S R N E Q A} {i j : Nat} {slot : Slot S R N E Q A}
    {session : Session S R N E Q A} (running : (m.setSlot i slot).Running j session) :
    (j = i ∧ slot = .running session) ∨ (j ≠ i ∧ m.Running j session) := by
  unfold Running setSlot at running
  by_cases same : j = i
  · subst same
    left
    rw [List.getElem?_set] at running
    simp only [if_true] at running
    split at running
    · exact ⟨rfl, Option.some.inj running⟩
    · cases running
  · right
    rw [List.getElem?_set_ne (Ne.symm same)] at running
    exact ⟨same, running⟩

/-- After a session has moved, what holds of each running session. -/
theorem each_set {m : Machine S R N E Q A} {i : Nat} (next : Session S R N E Q A)
    {T : Session S R N E Q A -> Prop} (old : ∀ j sj, m.Running j sj -> T sj) (new : T next)
    {j : Nat} {sj : Session S R N E Q A} (at_j : (m.setSlot i (.running next)).Running j sj) :
    T sj := by
  rcases running_set at_j with ⟨_, same⟩ | ⟨_, before⟩
  · cases same
    exact new
  · exact old j sj before

/-- After a session has moved, what holds of every two running sessions. -/
theorem pair_set {m : Machine S R N E Q A} {i : Nat} (next : Session S R N E Q A)
    {T : Session S R N E Q A -> Session S R N E Q A -> Prop}
    (old : ∀ a b sa sb, a ≠ b -> m.Running a sa -> m.Running b sb -> T sa sb)
    (left : ∀ b sb, b ≠ i -> m.Running b sb -> T next sb)
    (right : ∀ a sa, a ≠ i -> m.Running a sa -> T sa next)
    {a b : Nat} {sa sb : Session S R N E Q A} (different : a ≠ b)
    (at_a : (m.setSlot i (.running next)).Running a sa)
    (at_b : (m.setSlot i (.running next)).Running b sb) : T sa sb := by
  rcases running_set at_a with ⟨a_eq, same⟩ | ⟨a_ne, before_a⟩
  · cases same
    rcases running_set at_b with ⟨b_eq, _⟩ | ⟨b_ne, before_b⟩
    · exact absurd (a_eq.trans b_eq.symm) different
    · exact left b sb b_ne before_b
  · rcases running_set at_b with ⟨_, same⟩ | ⟨_, before_b⟩
    · cases same
      exact right a sa a_ne before_a
    · exact old a b sa sb different before_a before_b

end Facts

end Machine
end Transactions
end Shiftlush
