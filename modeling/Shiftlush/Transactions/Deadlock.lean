import Shiftlush.Transactions.Atomicity

namespace Shiftlush
namespace Transactions

/-!
# Sessions that wait for each other

A session whose next statement asks for a row waits for every other session
that holds the row against it.  Where each asks only for rows beyond those it
holds, nobody waits for himself in a circle; the two lemmas here are the two
halves of that argument.  A cycle of waits climbs (`no_cycle`), and what a
session holds it has asked for in order (`Reaches.holds`).
-/

variable {S R N E Q A : Type}

/-! ## Waiting -/

namespace Machine

/-- What a slot asks for next. -/
def asksFor : Slot S R N E Q A -> Option (LockMode × R)
  | .running session =>
      match session.rest with
      | .lock mode row _ => some (mode, row)
      | _ => none
  | _ => none

/-- Session `i` asks for a row next. -/
def Asks (m : Machine S R N E Q A) (i : Nat) (mode : LockMode) (row : R) : Prop :=
  ∃ session next, m.Running i session ∧ session.rest = .lock mode row next

theorem asks_iff {m : Machine S R N E Q A} {i : Nat} {mode : LockMode} {row : R} :
    m.Asks i mode row ↔ (m.slots[i]?).bind asksFor = some (mode, row) := by
  constructor
  · rintro ⟨session, next, running, rest⟩
    have running : m.slots[i]? = some (.running session) := running
    rw [running, Option.bind_some]
    simp only [asksFor, rest]
  · intro asks
    rcases Option.bind_eq_some_iff.mp asks with ⟨slot, at_i, asked⟩
    cases slot with
    | running session =>
        cases rest : session.rest with
        | lock mode' row' next =>
            simp only [asksFor, rest] at asked
            cases asked
            exact ⟨session, next, at_i, rest⟩
        | _ =>
            simp only [asksFor, rest] at asked
            cases asked
    | _ => cases asked

theorem Asks.unique {m : Machine S R N E Q A} {i : Nat} {mode mode' : LockMode} {row row' : R}
    (asks : m.Asks i mode row) (asks' : m.Asks i mode' row') : mode = mode' ∧ row = row' := by
  have same := (asks_iff.mp asks).symm.trans (asks_iff.mp asks')
  cases same
  exact ⟨rfl, rfl⟩

variable [DecidableEq R]

/-- Session `i` waits for session `j`. -/
def waitsFor (m : Machine S R N E Q A) (i j : Nat) : Bool :=
  match (m.slots[i]?).bind asksFor with
  | none => false
  | some (mode, row) => decide (j ≠ i) && (m.slots[j]?).any (holdsAgainst mode row)

theorem waitsFor_iff {m : Machine S R N E Q A} {i j : Nat} :
    m.waitsFor i j = true ↔ ∃ mode row held session, m.Asks i mode row ∧ j ≠ i ∧
      m.Running j session ∧ (held, row) ∈ session.trail.held ∧ held.conflicts mode = true := by
  unfold waitsFor
  constructor
  · intro waits
    split at waits
    · cases waits
    · rename_i mode row asked
      rw [Bool.and_eq_true, decide_eq_true_eq, Option.any_eq_true] at waits
      rcases waits with ⟨different, slot, at_j, holds⟩
      cases slot with
      | running session =>
          rcases List.any_eq_true.mp holds with ⟨⟨held, row'⟩, mem, against⟩
          rw [Bool.and_eq_true, decide_eq_true_eq] at against
          rcases against with ⟨same, conflicts⟩
          subst same
          exact ⟨mode, row', held, session, asks_iff.mpr asked, different, at_j, mem, conflicts⟩
      | _ => cases holds
  · rintro ⟨mode, row, held, session, asks, different, running, mem, conflicts⟩
    have running : m.slots[j]? = some (.running session) := running
    rw [asks_iff.mp asks]
    dsimp only
    rw [Bool.and_eq_true, decide_eq_true_eq, running]
    refine ⟨different, List.any_eq_true.mpr ⟨(held, row), mem, ?_⟩⟩
    rw [conflicts, decide_eq_true rfl]
    rfl

/-- `i` waits for `j`, directly or through others. -/
abbrev Awaits (m : Machine S R N E Q A) : Nat -> Nat -> Prop :=
  Relation.TransGen (fun i j => m.waitsFor i j = true)

/-- Who waits in a cycle waits for somebody in it. -/
theorem Awaits.around {m : Machine S R N E Q A} {i a : Nat} (cycle : m.Awaits i i)
    (there : m.Awaits i a) (back : m.Awaits a i) :
    ∃ b, m.waitsFor a b = true ∧ m.Awaits i b ∧ m.Awaits b i := by
  rcases Relation.TransGen.head'_iff.mp back with ⟨b, waits, rest⟩
  refine ⟨b, waits, there.tail waits, ?_⟩
  rcases Relation.reflTransGen_iff_eq_or_transGen.mp rest with same | rest
  · exact same ▸ cycle
  · exact rest

theorem Awaits.last {m : Machine S R N E Q A} {i j : Nat} (awaits : m.Awaits i j) :
    ∃ k, m.waitsFor k j = true := by
  rcases Relation.TransGen.tail'_iff.mp awaits with ⟨k, _, waits⟩
  exact ⟨k, waits⟩

/-- No cycle goes through `i` if every wait on it is for a session that asks
for a later row. -/
theorem no_cycle {m : Machine S R N E Q A} (before : R -> R -> Prop) {i : Nat}
    (trans : ∀ {a b c}, before a b -> before b c -> before a c) (irrefl : ∀ a, ¬ before a a)
    (climbs : ∀ a b, m.Awaits i a -> m.waitsFor a b = true -> m.Awaits b i ->
      ∃ mode mode' row row', m.Asks a mode row ∧ m.Asks b mode' row' ∧ before row row') :
    ¬ m.Awaits i i := by
  intro cycle
  have above : ∀ c, m.Awaits i c -> m.Awaits c i ->
      ∃ mode mode' row row', m.Asks i mode row ∧ m.Asks c mode' row' ∧ before row row' := by
    intro c path
    induction path with
    | single waits => exact climbs i _ cycle waits
    | @tail b c path waits ih =>
        intro back
        rcases ih (.head waits back) with ⟨mode, _, row, _, asks, asks_b, lower⟩
        rcases climbs b c path waits back with ⟨_, mode', _, row', asks_b', asks_c, higher⟩
        rw [(asks_b.unique asks_b').2] at lower
        exact ⟨mode, mode', row, row', asks, asks_c, trans lower higher⟩
  rcases above i cycle cycle with ⟨_, _, row, row', asks, asks', lower⟩
  rw [(asks.unique asks').2] at lower
  exact irrefl row' lower

end Machine

/-! ## What sessions ask for -/

section Order

variable {P : Convention S R N}

/-- What holds of no locks, and of one more asked for in order, holds of the
locks of every session. -/
theorem Reaches.holds {s : S} {p₀ p : Prog S R N E A} {retries : Nat} {t : Trail S R N}
    (reach : Reaches P s p₀ retries p t) {post : S -> A -> Trail S R N -> Prop}
    (sound : Sound P p₀ s (.start retries) post) {H : List (LockMode × R) -> Prop} (none : H [])
    (one : ∀ held mode row, H held -> P.order s held retries mode row -> H ((mode, row) :: held)) :
    t.retries = retries ∧ H t.held := by
  induction reach with
  | start => exact ⟨rfl, none⟩
  | lock reach ih =>
      have order := (reach.sound sound).1.1
      rw [ih.1] at order
      exact ⟨ih.1, one _ _ _ ih.2 order⟩
  | fetch _ _ ih => exact ih
  | missing _ ih => exact ih
  | peek _ _ ih => exact ih
  | fresh _ _ _ ih => exact ih
  | write _ ih => exact ih

variable {change : Q -> S -> S -> List N -> Prop} {m : Machine S R N E Q A}

/-- Whatever a session asks for, it asks for in order. -/
theorem Consistent.asks (ok : Consistent P change m) {i : Nat} {session : Session S R N E Q A}
    (running : m.Running i session) {mode : LockMode} {row : R} {next : Prog S R N E A}
    (rest : session.rest = .lock mode row next) :
    P.order m.committed session.trail.held session.trail.retries mode row := by
  have current := ok.current i session running
  have sound := (current.reach.sound (current.sound m.committed ok.inv)).1
  rw [rest] at sound
  exact sound.1

theorem Consistent.holds (ok : Consistent P change m) {i : Nat} {session : Session S R N E Q A}
    (running : m.Running i session) {H : List (LockMode × R) -> Prop} (none : H [])
    (one : ∀ held mode row, H held ->
      P.order m.committed held session.trail.retries mode row -> H ((mode, row) :: held)) :
    H session.trail.held := by
  have current := ok.current i session running
  exact (current.reach.holds (current.sound m.committed ok.inv) none one).2

end Order

end Transactions
end Shiftlush
