import Shiftlush.Transitions
import Shiftlush.Transactions.Notes

namespace Shiftlush
namespace Transactions

/-!
# Notes that locks keep true

What a stale read answered was true of the rows then.  A note that speaks only
of what the session has locked, and of what no session changes, stays true until
the session commits, and its program may count on it.
-/

variable {S R N E Q A : Type} {α β : Type}

/-- What a note means for committed rows within `law`, once it is taken, and the locks
that keep it true. -/
structure Guard (P : Convention S R N) (law : S -> Prop) where
  means : S -> N -> Prop
  locks : N -> List R
  taken : ∀ note s, law s -> P.noted s note -> means s note
  stable : ∀ note s s', (∀ row ∈ locks note, P.kept row s s') -> P.always s s' -> means s note -> means s' note

variable {P : Convention S R N} {law : S -> Prop}

/-- Every note that `p`, continued after `t`, takes has its locks, and `post` holds of
whatever `p` ends with. -/
def Guarded (G : Guard P law) :
    Prog S R N E α -> Trail S R N -> (α -> Trail S R N -> Prop) -> Prop
  | .done answer, t, post => post answer t
  | .raise _, _, _ => True
  | .rollback next, t, post => Guarded G next (.start (t.retries + 1)) post
  | .lock mode row next, t, post => Guarded G next (t.hold mode row) post
  | .fetch _ next missing, t, post => (∀ b, Guarded G (next b) t post) ∧ Guarded G missing t post
  | .peek _ log next, t, post => ∀ b,
      (∀ note ∈ log b, ∀ row ∈ G.locks note, t.Locked row) ∧ Guarded G (next b) (t.see (log b)) post
  | .fresh next, t, post => ∀ id, Guarded G (next id) (t.draw id) post
  | .write f next, t, post => Guarded G next (t.write f) post

section Rules

variable {G : Guard P law} {t : Trail S R N}

/-- The rule of sequence. -/
theorem guarded_bind {p : Prog S R N E α} {f : α -> Prog S R N E β} {post : β -> Trail S R N -> Prop} :
    Guarded G (p.bind f) t post ↔ Guarded G p t (fun a t' => Guarded G (f a) t' post) := by
  induction p generalizing t with
  | done answer => rfl
  | raise error => rfl
  | rollback next ih => exact ih
  | lock mode row next ih => exact ih
  | fetch query next missing ih ih_missing => exact and_congr (forall_congr' fun b => ih b) ih_missing
  | peek query log next ih => exact forall_congr' fun b => and_congr Iff.rfl (ih b)
  | fresh next ih => exact forall_congr' fun id => ih id
  | write f next ih => exact ih

theorem guarded_lock {mode : LockMode} {row : R} {post : Unit -> Trail S R N -> Prop} :
    Guarded G (lock mode row : Prog S R N E Unit) t post ↔ post () (t.hold mode row) := Iff.rfl

theorem guarded_fetch {query : S -> Option β} {e : E} {post : β -> Trail S R N -> Prop} :
    Guarded G (fetch query e : Prog S R N E β) t post ↔ ∀ b, post b t := by
  simp only [fetch, Guarded, and_true]

theorem guarded_peek {query : S -> β} {post : β -> Trail S R N -> Prop} :
    Guarded G (peek query : Prog S R N E β) t post ↔ ∀ b, post b (t.see []) := by
  simp only [peek, Guarded, List.not_mem_nil, false_implies, implies_true, true_and]

theorem guarded_write {f : S -> S} {post : Unit -> Trail S R N -> Prop} :
    Guarded G (write f : Prog S R N E Unit) t post ↔ post () (t.write f) := Iff.rfl

theorem guarded_require {test : Bool} {e : E} {post : Unit -> Trail S R N -> Prop} :
    Guarded G (require test e : Prog S R N E Unit) t post ↔ (test = true -> post () t) := by
  cases test with
  | true => simp [require, Guarded]
  | false => simp [require, Guarded]

end Rules

/-! ## Sessions of a machine -/

namespace Machine

/-- The session takes guarded notes only, and those it has taken are true now. -/
structure Standing (G : Guard P law) (s : S) (session : Session S R N E Q A) : Prop where
  rest : Guarded G session.rest session.trail (fun _ _ => True)
  means : ∀ note ∈ session.trail.seen, G.means s note
  locks : ∀ note ∈ session.trail.seen, ∀ row ∈ G.locks note, session.trail.Locked row

variable {G : Guard P law}

/-- Everybody's notes are true. -/
def AllStanding (G : Guard P law) (m : Machine S R N E Q A) : Prop :=
  ∀ i session, m.Running i session -> Standing G m.committed session

theorem allStanding_init (s : S) (nextId : Nat) :
    AllStanding G (Machine.init s nextId : Machine S R N E Q A) := by
  intro i session running
  simp only [Machine.Running, Machine.init, List.getElem?_nil] at running
  cases running

theorem AllStanding.move {m : Machine S R N E Q A} (all : AllStanding G m) {i : Nat}
    {next : Session S R N E Q A} (standing : Standing G m.committed next) :
    AllStanding G (m.setSlot i (.running next)) := by
  intro j sj at_j
  exact each_set next all standing at_j

theorem AllStanding.stop {m : Machine S R N E Q A} (all : AllStanding G m) (i : Nat)
    {slot : Slot S R N E Q A} (ended : ∀ session, slot ≠ .running session) :
    AllStanding G (m.setSlot i slot) := by
  intro j sj at_j
  rcases running_set at_j with ⟨_, same⟩ | ⟨_, before⟩
  · exact absurd same (ended sj)
  · exact all j sj before

variable {change : Q -> S -> S -> List N -> Prop}

/-- A commit leaves the notes of the others true: it changes nothing they have locked. -/
theorem AllStanding.commit {m : Machine S R N E Q A} (all : AllStanding G m) (ok : Consistent P change m)
    {i : Nat} {session : Session S R N E Q A} {answer : A} (running : m.Running i session)
    (rest : session.rest = .done answer) :
    AllStanding G { m.setSlot i (.committed answer) with committed := session.trail.writes m.committed } := by
  have confined := (ok.commit ⟨running, answer, rest⟩).2
  intro j sj at_j
  rcases running_set at_j with ⟨_, same⟩ | ⟨other, before⟩
  · cases same
  · have standing := all j sj before
    refine ⟨standing.rest, ?_, standing.locks⟩
    intro note mem
    apply G.stable note m.committed _ _ confined.always (standing.means note mem)
    intro row guards
    apply confined.rows row
    intro mine
    exact ok.exclusive j i sj session other before running row .update (standing.locks note mem row guards) mine

variable [DecidableEq R]

theorem AllStanding.advance {m : Machine S R N E Q A} (all : AllStanding G m) (ok : Consistent P change m)
    (within : law m.committed) {i : Nat} {session : Session S R N E Q A} (running : m.Running i session) :
    AllStanding G (m.advance i session) := by
  rcases all i session running with ⟨current, means, locks⟩
  unfold Machine.advance
  cases rest : session.rest with
  | done answer => exact all.commit ok running rest
  | raise error => exact all.stop i (fun _ same => by cases same)
  | rollback next =>
      rw [rest] at current
      exact all.move ⟨current, fun _ mem => (by cases mem), fun _ mem => (by cases mem)⟩
  | lock mode row next =>
      rw [rest] at current
      dsimp only
      split
      · exact all
      · exact all.move ⟨current, means, fun note mem row' guards => locked_hold row' (locks note mem row' guards)⟩
  | fetch query next missing =>
      rw [rest] at current
      dsimp only
      split
      · exact all.move ⟨current.2, means, locks⟩
      · exact all.move ⟨current.1 _, means, locks⟩
  | peek query log next =>
      rw [rest] at current
      have alone := ok.current i session running
      have sound := (alone.reach.sound (alone.sound _ ok.inv)).1
      rw [rest] at sound
      refine all.move ⟨(current _).2, ?_, ?_⟩
      · intro note mem
        rcases List.mem_append.mp mem with new | old
        · exact G.taken note m.committed within (sound.1 note new)
        · exact means note old
      · intro note mem
        rcases List.mem_append.mp mem with new | old
        · exact (current _).1 note new
        · exact locks note old
  | fresh next =>
      rw [rest] at current
      have drawn : Standing G m.committed { session with
          rest := next m.nextId, trail := session.trail.draw m.nextId } := ⟨current _, means, locks⟩
      intro j sj at_j
      exact all.move drawn j sj at_j
  | write f next =>
      rw [rest] at current
      exact all.move ⟨current, means, locks⟩

theorem AllStanding.step {serve : Q -> Prog S R N E A}
    (guarded : ∀ q, Guarded G (serve q) (.start 0) (fun _ _ => True)) {m : Machine S R N E Q A}
    (all : AllStanding G m) (ok : Consistent P change m) (within : law m.committed) (event : Event Q) :
    AllStanding G (m.step serve event) := by
  cases event with
  | arrive q =>
      intro j sj at_j
      simp only [Machine.Running, Machine.step, List.getElem?_append] at at_j
      split at at_j
      · exact all j sj at_j
      · rcases List.getElem?_eq_some_iff.mp at_j with ⟨_, same⟩
        rw [List.getElem_singleton] at same
        cases same
        exact ⟨guarded q, fun _ mem => (by cases mem), fun _ mem => (by cases mem)⟩
  | advance i =>
      simp only [Machine.step]
      split
      · exact all.advance ok within (by assumption)
      · exact all
  | lose i =>
      simp only [Machine.step]
      split
      · exact all.stop i (fun _ same => by cases same)
      · exact all

/-! ## Runs -/

/-- The obligations of a system whose programs count on their notes: what a session
commits by true notes keeps the law. -/
structure Governed (G : Guard P law) (serve : Q -> Prog S R N E A) (change : Q -> S -> S -> List N -> Prop) : Prop where
  disciplined : Disciplined P serve change
  guarded : ∀ q, Guarded G (serve q) (.start 0) (fun _ _ => True)
  keeps : ∀ q s s' seen, P.inv s -> law s -> (∀ note ∈ seen, G.means s note) -> change q s s' seen -> law s'

/-- Rows within the law, and sessions whose notes are true of them. -/
structure Orderly (G : Guard P law) (change : Q -> S -> S -> List N -> Prop) (m : Machine S R N E Q A) : Prop where
  ok : Consistent P change m
  standing : AllStanding G m
  within : law m.committed

variable {serve : Q -> Prog S R N E A} {m : Machine S R N E Q A}

omit [DecidableEq R] in
theorem orderly_init {s : S} {nextId : Nat} (inv : P.inv s) (unused : ∀ id, nextId ≤ id -> P.unused id s)
    (within : law s) : Orderly G change (Machine.init s nextId : Machine S R N E Q A) :=
  ⟨Consistent.init _ _ inv unused, allStanding_init s nextId, within⟩

/-- What a session commits, it makes of the rows committed then, and by true notes. -/
theorem Orderly.commits (orderly : Orderly G change m) {event : Event Q} {session : Session S R N E Q A}
    (commits : m.committing event = some session) :
    change session.request m.committed (m.step serve event).committed session.trail.seen ∧
      P.always m.committed (m.step serve event).committed ∧ ∀ note ∈ session.trail.seen, G.means m.committed note := by
  rcases committing_spec commits with ⟨i, _, now⟩
  rw [step_committed, commits]
  rcases orderly.ok.commit now with ⟨changed, confined⟩
  exact ⟨changed, confined.always, (orderly.standing i session now.1).means⟩

/-- Rows change by a commit, or not at all. -/
theorem Orderly.step_cases (orderly : Orderly G change m) (serve : Q -> Prog S R N E A) (event : Event Q) :
    (m.committing event = none ∧ (m.step serve event).committed = m.committed) ∨
      ∃ session, m.committing event = some session ∧
        change session.request m.committed (m.step serve event).committed session.trail.seen ∧
        P.always m.committed (m.step serve event).committed ∧ ∀ note ∈ session.trail.seen, G.means m.committed note := by
  cases commits : m.committing event with
  | none =>
      left
      refine ⟨rfl, ?_⟩
      rw [step_committed, commits]
      rfl
  | some session => exact Or.inr ⟨session, rfl, orderly.commits commits⟩

theorem Orderly.step (governed : Governed G serve change) (orderly : Orderly G change m) (event : Event Q) :
    Orderly G change (m.step serve event) := by
  refine ⟨orderly.ok.step governed.disciplined event,
    orderly.standing.step governed.guarded orderly.ok orderly.within event, ?_⟩
  rcases orderly.step_cases serve event with ⟨_, same⟩ | ⟨session, _, changed, _, means⟩
  · rw [same]
    exact orderly.within
  · exact governed.keeps _ _ _ _ orderly.ok.inv orderly.within means changed

theorem Orderly.run (governed : Governed G serve change) (orderly : Orderly G change m) (events : List (Event Q)) :
    Orderly G change (Transitions.run (Machine.step serve) m events) :=
  Transitions.run_invariant (fun _ event orderly => orderly.step governed event) events orderly

end Machine
end Transactions
end Shiftlush
