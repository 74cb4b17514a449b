import Shiftlush.Transitions
import Shiftlush.Transactions.Machine

namespace Shiftlush
namespace Transactions

/-!
# Programs that read as others commit

Nothing is assumed of the locks here.  Each statement of a program may be
answered from any rows that come later than those of the statement before, and
`Anytime` says what holds in the end whatever they were.  What it says of a
session stays true while the others commit, as long as what they commit comes
later and is within the law.
-/

/-- Which rows may come after which, and what holds of all of them. -/
structure Course (S : Type) where
  law : S -> Prop
  later : S -> S -> Prop
  refl : ∀ s, later s s
  trans : ∀ a b c, later a b -> later b c -> later a c

variable {S R N E Q A : Type} {α β : Type}

/-- `post` holds of whatever `p`, continued after `t`, ends with, each of its
statements on rows later than the last. -/
def Anytime (C : Course S) :
    Prog S R N E α -> S -> Trail S R N -> (S -> α -> Trail S R N -> Prop) -> Prop
  | .done answer, s, t, post => ∀ s', C.later s s' -> C.law s' -> post s' answer t
  | .raise _, _, _, _ => True
  | .rollback next, s, t, post => Anytime C next s (.start (t.retries + 1)) post
  | .lock mode row next, s, t, post => Anytime C next s (t.hold mode row) post
  | .fetch query next missing, s, t, post => ∀ s', C.later s s' -> C.law s' ->
      (∀ b, query (t.writes s') = some b -> Anytime C (next b) s' t post) ∧ Anytime C missing s' t post
  | .peek query log next, s, t, post => ∀ s', C.later s s' -> C.law s' ->
      Anytime C (next (query (t.writes s'))) s' (t.see (log (query (t.writes s')))) post
  | .fresh next, s, t, post => ∀ id, Anytime C (next id) s (t.draw id) post
  | .write f next, s, t, post => Anytime C next s (t.write f) post

section Rules

variable {C : Course S} {s : S} {t : Trail S R N}

theorem Anytime.later {p : Prog S R N E α} {post : S -> α -> Trail S R N -> Prop}
    (anytime : Anytime C p s t post) {s' : S} (after : C.later s s') : Anytime C p s' t post := by
  induction p generalizing t with
  | done answer => exact fun s'' further => anytime s'' (C.trans s s' s'' after further)
  | raise error => trivial
  | rollback next ih => exact ih anytime
  | lock mode row next ih => exact ih anytime
  | fetch query next missing ih ih_missing =>
      exact fun s'' further => anytime s'' (C.trans s s' s'' after further)
  | peek query log next ih => exact fun s'' further => anytime s'' (C.trans s s' s'' after further)
  | fresh next ih => exact fun id => ih id (anytime id)
  | write f next ih => exact ih anytime

/-- A program only finds out where it is when it reads. -/
theorem Anytime.of_later {p : Prog S R N E α} {post : S -> α -> Trail S R N -> Prop}
    (anytime : ∀ s', C.later s s' -> C.law s' -> Anytime C p s' t post) : Anytime C p s t post := by
  induction p generalizing t with
  | done answer => exact fun s' after within => anytime s' after within s' (C.refl s') within
  | raise error => trivial
  | rollback next ih => exact ih anytime
  | lock mode row next ih => exact ih anytime
  | fetch query next missing ih ih_missing =>
      exact fun s' after within => anytime s' after within s' (C.refl s') within
  | peek query log next ih => exact fun s' after within => anytime s' after within s' (C.refl s') within
  | fresh next ih => exact fun id => ih id (fun s' after within => anytime s' after within id)
  | write f next ih => exact ih anytime

/-- The rule of sequence. -/
theorem Anytime.bind {p : Prog S R N E α} {f : α -> Prog S R N E β}
    {mid : S -> α -> Trail S R N -> Prop} {post : S -> β -> Trail S R N -> Prop}
    (first : Anytime C p s t mid)
    (second : ∀ s a t, C.law s -> mid s a t -> Anytime C (f a) s t post) :
    Anytime C (p >>= f) s t post := by
  change Anytime C (p.bind f) s t post
  induction p generalizing s t with
  | done answer =>
      apply Anytime.of_later
      intro s' after within
      exact second s' answer t within (first s' after within)
  | raise error => trivial
  | rollback next ih => exact ih first
  | lock mode row next ih => exact ih first
  | fetch query next missing ih ih_missing =>
      intro s' after within
      exact ⟨fun b found => ih b ((first s' after within).1 b found), ih_missing (first s' after within).2⟩
  | peek query log next ih => exact fun s' after within => ih _ (first s' after within)
  | fresh next ih => exact fun id => ih id (first id)
  | write f next ih => exact ih first

theorem Anytime.mono {p : Prog S R N E α} {post post' : S -> α -> Trail S R N -> Prop}
    (anytime : Anytime C p s t post) (weaker : ∀ s a t, C.law s -> post s a t -> post' s a t) :
    Anytime C p s t post' := by
  induction p generalizing s t with
  | done answer => exact fun s' after within => weaker s' answer t within (anytime s' after within)
  | raise error => trivial
  | rollback next ih => exact ih anytime
  | lock mode row next ih => exact ih anytime
  | fetch query next missing ih ih_missing =>
      intro s' after within
      exact ⟨fun b found => ih b ((anytime s' after within).1 b found),
        ih_missing (anytime s' after within).2⟩
  | peek query log next ih => exact fun s' after within => ih _ (anytime s' after within)
  | fresh next ih => exact fun id => ih id (anytime id)
  | write f next ih => exact ih anytime

/-- What stays true holds in the end. -/
theorem Anytime.keep {p : Prog S R N E α} {post : S -> α -> Trail S R N -> Prop}
    (anytime : Anytime C p s t post) {K : S -> Prop} (stable : ∀ s s', C.later s s' -> K s -> K s')
    (here : K s) : Anytime C p s t (fun s' a t' => post s' a t' ∧ K s') := by
  induction p generalizing s t with
  | done answer => exact fun s' after within => ⟨anytime s' after within, stable s s' after here⟩
  | raise error => trivial
  | rollback next ih => exact ih anytime here
  | lock mode row next ih => exact ih anytime here
  | fetch query next missing ih ih_missing =>
      intro s' after within
      have there := stable s s' after here
      exact ⟨fun b found => ih b ((anytime s' after within).1 b found) there,
        ih_missing (anytime s' after within).2 there⟩
  | peek query log next ih =>
      exact fun s' after within => ih _ (anytime s' after within) (stable s s' after here)
  | fresh next ih => exact fun id => ih id (anytime id) here
  | write f next ih => exact ih anytime here

theorem anytime_require {test : Bool} {e : E} :
    Anytime C (require test e : Prog S R N E Unit) s t (fun _ _ t' => test = true ∧ t' = t) := by
  cases test with
  | true => exact fun _ _ _ => ⟨rfl, rfl⟩
  | false => trivial

/-- The rule of the loop: `J` holds of the elements behind it, on any rows. -/
theorem Anytime.forEach {body : β -> Prog S R N E α} {items : List β}
    {J : List β -> List α -> Trail S R N -> Prop} (before : J [] [] t)
    (step : ∀ done item rest answers s t, items = done ++ item :: rest -> J done answers t ->
      Anytime C (body item) s t (fun _ a t' => J (done ++ [item]) (answers ++ [a]) t')) :
    Anytime C (Transactions.forEach items body) s t (fun _ answers t' => J items answers t') := by
  have loop : ∀ rest done answers s t, items = done ++ rest -> J done answers t ->
      Anytime C (Transactions.forEach rest body) s t
        (fun _ more t' => J items (answers ++ more) t') := by
    intro rest
    induction rest with
    | nil =>
        intro done answers s t split here _ _ _
        rw [List.append_nil] at split
        subst split
        rw [List.append_nil]
        exact here
    | cons item rest ih =>
        intro done answers s t split here
        refine Anytime.bind (step done item rest answers s t split here) ?_
        intro s' a t' _ there
        have split' : items = (done ++ [item]) ++ rest := by
          rw [split, List.append_assoc, List.singleton_append]
        refine Anytime.bind (ih (done ++ [item]) (answers ++ [a]) s' t' split' there) ?_
        intro s'' more t'' _ last s''' _ _
        rw [← List.singleton_append, ← List.append_assoc]
        exact last
  exact loop items [] [] s t rfl before

end Rules

/-! ## Sessions of a machine -/

namespace Machine

variable {C : Course S} {post : Q -> S -> A -> Trail S R N -> Prop}

/-- Whatever the other sessions commit, each session ends with what is said of its request. -/
def Attended (C : Course S) (post : Q -> S -> A -> Trail S R N -> Prop) (m : Machine S R N E Q A) : Prop :=
  ∀ i session, m.Running i session -> Anytime C session.rest m.committed session.trail (post session.request)

theorem attended_init (s : S) (nextId : Nat) :
    Attended C post (Machine.init s nextId : Machine S R N E Q A) := by
  intro i session running
  simp only [Machine.Running, Machine.init, List.getElem?_nil] at running
  cases running

theorem Attended.commits {m : Machine S R N E Q A} (attended : Attended C post m)
    (within : C.law m.committed) {i : Nat} {session : Session S R N E Q A} {answer : A}
    (running : m.Running i session) (rest : session.rest = .done answer) :
    post session.request m.committed answer session.trail := by
  have ends := attended i session running
  rw [rest] at ends
  exact ends m.committed (C.refl _) within

/-- Replacing one session by itself a statement further on. -/
theorem Attended.move {m : Machine S R N E Q A} (attended : Attended C post m) {i : Nat}
    {next : Session S R N E Q A}
    (current : Anytime C next.rest m.committed next.trail (post next.request)) :
    Attended C post (m.setSlot i (.running next)) := by
  intro j sj at_j
  exact each_set next attended current at_j

theorem Attended.stop {m : Machine S R N E Q A} (attended : Attended C post m) (i : Nat)
    {slot : Slot S R N E Q A} (ended : ∀ session, slot ≠ .running session) :
    Attended C post (m.setSlot i slot) := by
  intro j sj at_j
  rcases running_set at_j with ⟨_, same⟩ | ⟨_, before⟩
  · exact absurd same (ended sj)
  · exact attended j sj before

variable [DecidableEq R]

theorem Attended.advance {m : Machine S R N E Q A} (attended : Attended C post m)
    (within : C.law m.committed) {i : Nat} {session : Session S R N E Q A}
    (running : m.Running i session) (after : C.later m.committed (m.advance i session).committed) :
    Attended C post (m.advance i session) := by
  have current := attended i session running
  unfold Machine.advance at after ⊢
  cases rest : session.rest with
  | done answer =>
      rw [rest] at after
      have stopped : Attended C post (m.setSlot i (.committed answer)) :=
        attended.stop i (fun _ same => by cases same)
      intro j sj at_j
      exact (stopped j sj at_j).later after
  | raise error => exact attended.stop i (fun _ same => by cases same)
  | rollback next =>
      rw [rest] at current
      exact attended.move current
  | lock mode row next =>
      rw [rest] at current
      dsimp only
      split
      · exact attended
      · exact attended.move current
  | fetch query next missing =>
      rw [rest] at current
      have here := current m.committed (C.refl _) within
      dsimp only
      split
      · exact attended.move here.2
      · rename_i b found
        exact attended.move (here.1 b found)
  | peek query log next =>
      rw [rest] at current
      exact attended.move (current m.committed (C.refl _) within)
  | fresh next =>
      rw [rest] at current
      exact attended.move (current m.nextId)
  | write f next =>
      rw [rest] at current
      exact attended.move current

/-- A step whose rows come later. -/
theorem Attended.step {m : Machine S R N E Q A} {serve : Q -> Prog S R N E A}
    (attended : Attended C post m) (within : C.law m.committed) {event : Event Q}
    (after : C.later m.committed (m.step serve event).committed)
    (arrives : ∀ q, event = .arrive q -> Anytime C (serve q) m.committed (.start 0) (post q)) :
    Attended C post (m.step serve event) := by
  cases event with
  | arrive q =>
      intro j sj at_j
      have listed : (m.slots ++ [.running ⟨q, serve q, serve q, .start 0⟩])[j]? = some (.running sj) := at_j
      rcases Transitions.slot_concat listed with ⟨_, same⟩ | before
      · cases same
        exact arrives q rfl
      · exact attended j sj before
  | advance i =>
      simp only [Machine.step] at after ⊢
      split
      · rename_i session running
        rw [running] at after
        exact attended.advance within running after
      · exact attended
  | lose i =>
      simp only [Machine.step]
      split
      · exact attended.stop i (fun _ same => by cases same)
      · exact attended

end Machine

end Transactions
end Shiftlush
