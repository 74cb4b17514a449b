import Shiftlush.Transactions.Atomicity

namespace Shiftlush
namespace Transactions

/-!
# What becomes of a stale read

A `peek` protects nothing, but what it answered was true when it answered, and
`Convention.noted` says what that means for its notes.  A note stays in the log
of its session until the session ends, and only a commit can make it false.
-/

variable {S R N E Q A : Type}

namespace Machine

/-- The session whose commit this step is. -/
def committing (m : Machine S R N E Q A) : Event Q -> Option (Session S R N E Q A)
  | .advance i =>
      match m.slots[i]? with
      | some (.running session) =>
          match session.rest with
          | .done _ => some session
          | _ => none
      | _ => none
  | _ => none

theorem committing_spec {m : Machine S R N E Q A} {event : Event Q} {session : Session S R N E Q A}
    (commits : m.committing event = some session) :
    ∃ i, event = .advance i ∧ m.Commits i session := by
  cases event with
  | arrive q => cases commits
  | lose i => cases commits
  | advance i =>
      refine ⟨i, rfl, ?_⟩
      simp only [committing] at commits
      split at commits
      · rename_i session' running
        split at commits
        · rename_i answer rest
          cases commits
          exact ⟨running, answer, rest⟩
        · cases commits
      · cases commits

variable [DecidableEq R]

/-- Only a commit changes the committed rows, into what its session made of them. -/
theorem step_committed (serve : Q -> Prog S R N E A) (m : Machine S R N E Q A) (event : Event Q) :
    (m.step serve event).committed =
      ((m.committing event).map (fun session => session.trail.writes m.committed)).getD
        m.committed := by
  cases event with
  | arrive q => rfl
  | lose i =>
      simp only [step, committing]
      split
      · rfl
      · rfl
  | advance i =>
      cases slot : m.slots[i]? with
      | none => simp only [step, committing, slot, Option.map_none, Option.getD_none]
      | some state =>
          cases state with
          | running session =>
              simp only [step, committing, slot]
              unfold advance
              cases rest : session.rest with
              | lock mode row next =>
                  dsimp only
                  split
                  · rfl
                  · rfl
              | fetch query next missing =>
                  dsimp only
                  split
                  · rfl
                  · rfl
              | _ => rfl
          | _ => simp only [step, committing, slot, Option.map_none, Option.getD_none]

end Machine

variable {P : Convention S R N} {change : Q -> S -> S -> List N -> Prop} [DecidableEq R]

/-- Where a note in a log comes from: it was there before the step, or it has
just been read, from rows the step leaves alone. -/
theorem Consistent.noted_step {m : Machine S R N E Q A} (ok : Consistent P change m)
    (serve : Q -> Prog S R N E A) (event : Event Q) {j : Nat} {sj : Session S R N E Q A} {note : N}
    (running : (m.step serve event).Running j sj) (mem : note ∈ sj.trail.seen) :
    (∃ before, m.Running j before ∧ note ∈ before.trail.seen) ∨
      (P.noted m.committed note ∧ m.committing event = none) := by
  cases event with
  | arrive q =>
      left
      simp only [Machine.Running, Machine.step, List.getElem?_append] at running
      split at running
      · exact ⟨sj, running, mem⟩
      · rcases List.getElem?_eq_some_iff.mp running with ⟨_, same⟩
        rw [List.getElem_singleton] at same
        cases same
        cases mem
  | lose i =>
      left
      simp only [Machine.step] at running
      split at running
      · rcases Machine.running_set running with ⟨_, same⟩ | ⟨_, before⟩
        · cases same
        · exact ⟨sj, before, mem⟩
      · exact ⟨sj, running, mem⟩
  | advance i =>
      cases slot : m.slots[i]? with
      | none =>
          simp only [Machine.step, slot] at running
          exact Or.inl ⟨sj, running, mem⟩
      | some state =>
          cases state with
          | running session =>
              -- A step that keeps the log, or starts a new one.
              have others : ∀ {next : Slot S R N E Q A}, (m.setSlot i next).Running j sj ->
                  (∀ session', next = .running session' -> session'.trail.seen = session.trail.seen ∨
                    session'.trail.seen = []) ->
                  ∃ before, m.Running j before ∧ note ∈ before.trail.seen := by
                intro next running logs
                rcases Machine.running_set running with ⟨here, same⟩ | ⟨_, before⟩
                · rcases logs sj same with kept | empty
                  · rw [kept] at mem
                    exact ⟨session, here ▸ slot, mem⟩
                  · rw [empty] at mem
                    cases mem
                · exact ⟨sj, before, mem⟩
              simp only [Machine.step, slot] at running
              unfold Machine.advance at running
              cases rest : session.rest with
              | done answer =>
                  simp only [rest] at running
                  exact Or.inl (others running (fun _ same => by cases same))
              | raise error =>
                  simp only [rest] at running
                  exact Or.inl (others running (fun _ same => by cases same))
              | rollback next =>
                  simp only [rest] at running
                  exact Or.inl (others running (fun _ same => by cases same; exact Or.inr rfl))
              | lock mode row next =>
                  simp only [rest] at running
                  split at running
                  · exact Or.inl ⟨sj, running, mem⟩
                  · exact Or.inl (others running (fun _ same => by cases same; exact Or.inl rfl))
              | fetch query next missing =>
                  simp only [rest] at running
                  split at running
                  · exact Or.inl (others running (fun _ same => by cases same; exact Or.inl rfl))
                  · exact Or.inl (others running (fun _ same => by cases same; exact Or.inl rfl))
              | fresh next =>
                  simp only [rest] at running
                  exact Or.inl (others running (fun _ same => by cases same; exact Or.inl rfl))
              | write f next =>
                  simp only [rest] at running
                  exact Or.inl (others running (fun _ same => by cases same; exact Or.inl rfl))
              | peek query log next =>
                  simp only [rest] at running
                  rcases Machine.running_set running with ⟨here, same⟩ | ⟨_, before⟩
                  · cases same
                    rcases List.mem_append.mp mem with new | old
                    · right
                      have current := ok.current i session slot
                      have sound := (current.reach.sound (current.sound _ ok.inv)).1
                      rw [rest] at sound
                      refine ⟨sound.1 note new, ?_⟩
                      simp only [Machine.committing, slot, rest]
                    · exact Or.inl ⟨session, here ▸ slot, old⟩
                  · exact Or.inl ⟨sj, before, mem⟩
          | _ =>
              simp only [Machine.step, slot] at running
              exact Or.inl ⟨sj, running, mem⟩

end Transactions
end Shiftlush
