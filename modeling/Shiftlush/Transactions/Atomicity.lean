import Shiftlush.Transactions.Convention
import Mathlib.Logic.Relation

namespace Shiftlush
namespace Transactions

/-!
# Interleaved sessions commit atomically

The theorem of this library.  If the program of every request is `Sound`, then
in every schedule each commit takes the committed rows from what they are at
that moment to what the request alone would have made of them.  So the rows
committed in any run are those of a run in which requests act one at a time, in
the order of their commits, and an invariant of single requests is an invariant
of every interleaving.

The invariant that carries it says of every running session that its attempt,
replayed from its start on the rows committed *now*, gets to where the session
is.  Another session's commit changes nothing that replay reads, because the
locks that would allow it to are held here.
-/

variable {S R N E Q A : Type}

section Replay

variable (P : Convention S R N)

/-- On the committed rows `s`, with nobody else about, the attempt `p₀`, made
after `retries` others, gets to `p` after `t`.  A `peek` may have answered anything, and a `fetch` may have
missed what is there now. -/
inductive Reaches (s : S) (p₀ : Prog S R N E A) (retries : Nat) :
    Prog S R N E A -> Trail S R N -> Prop where
  | start : Reaches s p₀ retries p₀ (.start retries)
  | lock {mode row next t} : Reaches s p₀ retries (.lock mode row next) t ->
      Reaches s p₀ retries next (t.hold mode row)
  | fetch {β : Type} {query : S -> Option β} {next missing t b} :
      Reaches s p₀ retries (.fetch query next missing) t -> query (t.writes s) = some b ->
      Reaches s p₀ retries (next b) t
  | missing {β : Type} {query : S -> Option β} {next missing t} :
      Reaches s p₀ retries (.fetch query next missing) t -> Reaches s p₀ retries missing t
  | peek {β : Type} {query : S -> β} {log next t} (b : β) :
      Reaches s p₀ retries (.peek query log next) t -> Reaches s p₀ retries (next b) (t.see (log b))
  | fresh {next t id} : Reaches s p₀ retries (.fresh next) t -> P.unused id s ->
      (∀ earlier ∈ t.ids, earlier < id) -> Reaches s p₀ retries (next id) (t.draw id)
  | write {f next t} : Reaches s p₀ retries (.write f next) t -> Reaches s p₀ retries next (t.write f)

/-- A change of the committed rows by somebody else, as seen by a session that
has done `t`. -/
structure Interferes (t : Trail S R N) (s s' : S) : Prop where
  rows : ∀ row, t.Locked row -> P.kept row s s'
  always : P.always s s'
  ids : ∀ id ∈ t.ids, P.unused id s -> P.unused id s'

variable {P}

theorem Interferes.weaken {t t' : Trail S R N} {s s' : S} (other : Interferes P t' s s')
    (held : ∀ row, t.Locked row -> t'.Locked row) (ids : ∀ id ∈ t.ids, id ∈ t'.ids) :
    Interferes P t s s' :=
  ⟨fun row locked => other.rows row (held row locked), other.always,
    fun id mem => other.ids id (ids id mem)⟩

variable {s : S} {p₀ p : Prog S R N E A} {retries : Nat} {t : Trail S R N}

theorem Reaches.unused (reach : Reaches P s p₀ retries p t) : ∀ id ∈ t.ids, P.unused id s := by
  induction reach with
  | start => exact fun id mem => absurd mem List.not_mem_nil
  | lock _ ih => exact ih
  | fetch _ _ ih => exact ih
  | missing _ ih => exact ih
  | peek _ _ ih => exact ih
  | fresh _ unused _ ih =>
      intro id mem
      rcases List.mem_cons.mp mem with same | mem
      · exact same ▸ unused
      · exact ih id mem
  | write _ ih => exact ih

/-- What `Sound` at the start gives at every later point of the attempt. -/
theorem Reaches.sound (reach : Reaches P s p₀ retries p t) {post : S -> A -> Trail S R N -> Prop}
    (sound : Sound P p₀ s (.start retries) post) :
    Sound P p s t post ∧ P.Respects t t.writes s ∧ P.Confined t s (t.writes s) := by
  induction reach with
  | start => exact ⟨sound, .id _ s, .refl _ s⟩
  | lock _ ih =>
      exact ⟨ih.1.2, ih.2.1.strengthen locked_hold (fun _ mem => mem),
        ih.2.2.weaken locked_hold (fun _ mem => mem)⟩
  | fetch _ found ih => exact ⟨(ih.1.1 _ found).2, ih.2⟩
  | missing _ ih => exact ⟨ih.1.2, ih.2⟩
  | peek b _ ih => exact ⟨ih.1.2 b, ih.2.1.strengthen (fun _ l => l) (fun _ mem => mem),
      ih.2.2.weaken (fun _ l => l) (fun _ mem => mem)⟩
  | fresh _ unused later ih =>
      exact ⟨ih.1 _ unused later, ih.2.1.strengthen (fun _ l => l) mem_draw,
        ih.2.2.weaken (fun _ l => l) mem_draw⟩
  | write _ ih =>
      obtain ⟨⟨respects, confines, rest⟩, before, confined⟩ := ih
      exact ⟨rest, (respects.comp before).strengthen (fun _ l => l) (fun _ mem => mem),
        (confines confined).weaken (fun _ l => l) (fun _ mem => mem)⟩

theorem Interferes.rely {s' : S} (other : Interferes P t s s')
    (unused : ∀ id ∈ t.ids, P.unused id s) : P.Rely t s s' :=
  ⟨other.rows, fun id mem => P.unused_kept id (unused id mem) (other.ids id mem (unused id mem)),
    other.always⟩

/-- The replay survives what others commit. -/
theorem Reaches.interfere (reach : Reaches P s p₀ retries p t) {post : S -> A -> Trail S R N -> Prop}
    (sound : Sound P p₀ s (.start retries) post) {s' : S} (other : Interferes P t s s') :
    Reaches P s' p₀ retries p t := by
  induction reach with
  | start => exact .start
  | lock reach ih => exact .lock (ih (other.weaken locked_hold (fun _ mem => mem)))
  | @fetch β query next missing t b reach found ih =>
      refine .fetch (ih other) ?_
      obtain ⟨rest, respects, _⟩ := reach.sound sound
      exact (rest.1 b found).1 _ (respects.rely (other.rely reach.unused))
  | missing _ ih => exact .missing (ih other)
  | peek b _ ih => exact .peek b (ih (other.weaken (fun _ l => l) (fun _ mem => mem)))
  | fresh _ unused later ih =>
      exact .fresh (ih (other.weaken (fun _ l => l) mem_draw))
        (other.ids _ List.mem_cons_self unused) later
  | write _ ih => exact .write (ih (other.weaken (fun _ l => l) (fun _ mem => mem)))

end Replay

/-! ## The invariant of the machine -/

section Machine

/-- The obligations of a system of requests: the program of each is sound, what
each commits is a `change`, and changes keep the invariant of the rows. -/
structure Disciplined (P : Convention S R N) (serve : Q -> Prog S R N E A)
    (change : Q -> S -> S -> List N -> Prop) : Prop where
  sound : ∀ q s, P.inv s ->
    Sound P (serve q) s (.start 0) (fun s' _ t => change q s' (t.writes s') t.seen)
  inv : ∀ q s s' seen, P.inv s -> change q s s' seen -> P.inv s'

variable (P : Convention S R N) (change : Q -> S -> S -> List N -> Prop)

/-- A session that could have come this far alone, on the rows committed now. -/
structure Session.Current (s : S) (session : Session S R N E Q A) : Prop where
  sound : ∀ s', P.inv s' -> Sound P session.attempt s' (.start session.trail.retries)
    (fun s'' _ t => change session.request s'' (t.writes s'') t.seen)
  reach : Reaches P s session.attempt session.trail.retries session.rest session.trail

structure Consistent (m : Machine S R N E Q A) : Prop where
  inv : P.inv m.committed
  current : ∀ i session, m.Running i session -> session.Current P change m.committed
  exclusive : ∀ i j si sj, i ≠ j -> m.Running i si -> m.Running j sj ->
    ∀ row mode, si.trail.Locked row -> (mode, row) ∉ sj.trail.held
  apart : ∀ i j si sj, i ≠ j -> m.Running i si -> m.Running j sj ->
    ∀ id ∈ si.trail.ids, id ∉ sj.trail.ids
  drawn : ∀ i session, m.Running i session -> ∀ id ∈ session.trail.ids, id < m.nextId
  fresh : ∀ id, m.nextId ≤ id -> P.unused id m.committed

theorem Consistent.init {s : S} {nextId : Nat} (inv : P.inv s)
    (fresh : ∀ id, nextId ≤ id -> P.unused id s) :
    Consistent P change (Machine.init s nextId : Machine S R N E Q A) := by
  have nobody : ∀ i (session : Session S R N E Q A),
      ¬ (Machine.init s nextId : Machine S R N E Q A).Running i session := by
    intro i session running
    simp only [Machine.Running, Machine.init, List.getElem?_nil] at running
    cases running
  exact ⟨inv, fun i _ running => absurd running (nobody i _),
    fun i _ _ _ _ running => absurd running (nobody i _),
    fun i _ _ _ _ running => absurd running (nobody i _),
    fun i _ running => absurd running (nobody i _), fresh⟩

variable {P change}

/-- Replace one session by itself a statement further on, with nothing
committed: the new session has to be current, and its locks and keys its own. -/
theorem Consistent.move {m : Machine S R N E Q A} (ok : Consistent P change m) {i : Nat}
    {session next : Session S R N E Q A} (running : m.Running i session)
    (current : next.Current P change m.committed)
    (held : ∀ mode row, (mode, row) ∈ next.trail.held -> (mode, row) ∈ session.trail.held ∨
      ∀ j sj, j ≠ i -> m.Running j sj -> ∀ held, (held, row) ∈ sj.trail.held ->
        held.conflicts mode = false)
    (ids : ∀ id ∈ next.trail.ids, id ∈ session.trail.ids) :
    Consistent P change (m.setSlot i (.running next)) := by
  refine ⟨ok.inv, ?_, ?_, ?_, ?_, ok.fresh⟩
  · exact fun j sj => Machine.each_set next ok.current current
  · intro a b sa sb different at_a at_b
    refine Machine.pair_set next (T := fun sa sb => ∀ row mode, sa.trail.Locked row ->
      (mode, row) ∉ sb.trail.held) ok.exclusive ?_ ?_ different at_a at_b
    · intro b sb b_ne at_b row mode locked holds
      rcases held .update row locked with before | free
      · exact ok.exclusive i b session sb b_ne.symm running at_b row mode before holds
      · have := free b sb b_ne at_b mode holds
        rw [LockMode.conflicts_comm, LockMode.conflicts_update] at this
        cases this
    · intro a sa a_ne at_a row mode locked holds
      rcases held mode row holds with before | free
      · exact ok.exclusive a i sa session a_ne at_a running row mode locked before
      · have := free a sa a_ne at_a .update locked
        rw [LockMode.conflicts_update] at this
        cases this
  · intro a b sa sb different at_a at_b
    refine Machine.pair_set next (T := fun sa sb => ∀ id ∈ sa.trail.ids, id ∉ sb.trail.ids)
      ok.apart ?_ ?_ different at_a at_b
    · exact fun b sb b_ne at_b id mem =>
        ok.apart i b session sb b_ne.symm running at_b id (ids id mem)
    · exact fun a sa a_ne at_a id mem later =>
        ok.apart a i sa session a_ne at_a running id mem (ids id later)
  · exact fun j sj => Machine.each_set next (T := fun sj => ∀ id ∈ sj.trail.ids, id < m.nextId)
      ok.drawn (fun id mem => ok.drawn i session running id (ids id mem))

/-- End one session, with nothing committed. -/
theorem Consistent.stop {m : Machine S R N E Q A} (ok : Consistent P change m) (i : Nat)
    {T : Slot S R N E Q A} (ended : ∀ session, T ≠ .running session) :
    Consistent P change (m.setSlot i T) := by
  have others : ∀ j sj, (m.setSlot i T).Running j sj -> m.Running j sj := by
    intro j sj at_j
    rcases Machine.running_set at_j with ⟨_, same⟩ | ⟨_, at_j⟩
    · exact absurd same (ended sj)
    · exact at_j
  exact ⟨ok.inv, fun j sj at_j => ok.current j sj (others j sj at_j),
    fun a b sa sb different at_a at_b =>
      ok.exclusive a b sa sb different (others a sa at_a) (others b sb at_b),
    fun a b sa sb different at_a at_b =>
      ok.apart a b sa sb different (others a sa at_a) (others b sb at_b),
    fun j sj at_j => ok.drawn j sj (others j sj at_j), ok.fresh⟩

/-- What a commit does: a change of the committed rows, seen by every other
session as one that leaves alone what it relies on. -/
theorem Consistent.commit {m : Machine S R N E Q A} (ok : Consistent P change m) {i : Nat}
    {session : Session S R N E Q A} (commits : m.Commits i session) :
    change session.request m.committed (session.trail.writes m.committed) session.trail.seen ∧
      P.Confined session.trail m.committed (session.trail.writes m.committed) := by
  obtain ⟨running, answer, rest⟩ := commits
  have current := ok.current i session running
  obtain ⟨done, _, confined⟩ := current.reach.sound (current.sound m.committed ok.inv)
  rw [rest] at done
  exact ⟨done, confined⟩

theorem Consistent.committed {m : Machine S R N E Q A} (ok : Consistent P change m)
    (keeps : ∀ q s s' seen, P.inv s -> change q s s' seen -> P.inv s') {i : Nat}
    {session : Session S R N E Q A} {answer : A} (running : m.Running i session)
    (rest : session.rest = .done answer) :
    Consistent P change { m.setSlot i (.committed answer) with
      committed := session.trail.writes m.committed } := by
  obtain ⟨changed, confined⟩ := ok.commit ⟨running, answer, rest⟩
  have stopped := ok.stop i (T := .committed answer) (fun _ same => by cases same)
  refine ⟨keeps _ _ _ _ ok.inv changed, ?_, stopped.exclusive, stopped.apart, stopped.drawn, ?_⟩
  · intro j sj at_j
    have before := stopped.current j sj at_j
    rcases Machine.running_set at_j with ⟨_, same⟩ | ⟨j_ne, at_j⟩
    · cases same
    refine ⟨before.sound, before.reach.interfere (before.sound _ ok.inv) ⟨?_, confined.always, ?_⟩⟩
    · intro row locked
      exact confined.rows row (fun mine =>
        ok.exclusive j i sj session j_ne at_j running row .update locked mine)
    · intro id mem
      exact confined.ids id (fun mine => ok.apart j i sj session j_ne at_j running id mem mine)
  · intro id later
    refine confined.ids id (fun mine => ?_) (ok.fresh id later)
    exact absurd (ok.drawn i session running id mine) (Nat.not_lt.mpr later)

/-- A session that drew the next key. -/
theorem Consistent.drew {m : Machine S R N E Q A} (ok : Consistent P change m) {i : Nat}
    {session : Session S R N E Q A} (running : m.Running i session)
    {next : Nat -> Prog S R N E A} (rest : session.rest = .fresh next) :
    Consistent P change { m.setSlot i (.running { session with
      rest := next m.nextId, trail := session.trail.draw m.nextId }) with
        nextId := m.nextId + 1 } := by
  let moved : Session S R N E Q A :=
    { session with rest := next m.nextId, trail := session.trail.draw m.nextId }
  have current := ok.current i session running
  have mine := ok.drawn i session running
  have theirs : ∀ j sj, m.Running j sj -> m.nextId ∉ sj.trail.ids :=
    fun j sj at_j mem => Nat.lt_irrefl _ (ok.drawn j sj at_j _ mem)
  refine ⟨ok.inv, ?_, ?_, ?_, ?_, fun id later => ok.fresh id (Nat.le_of_succ_le later)⟩
  · exact fun j sj => Machine.each_set moved ok.current
      ⟨current.sound, .fresh (rest ▸ current.reach) (ok.fresh _ (Nat.le_refl _)) mine⟩
  · intro a b sa sb different at_a at_b
    exact Machine.pair_set moved (T := fun sa sb => ∀ row mode, sa.trail.Locked row ->
      (mode, row) ∉ sb.trail.held) ok.exclusive
      (fun b sb b_ne at_b => ok.exclusive i b session sb b_ne.symm running at_b)
      (fun a sa a_ne at_a => ok.exclusive a i sa session a_ne at_a running) different at_a at_b
  · intro a b sa sb different at_a at_b
    refine Machine.pair_set moved (T := fun sa sb => ∀ id ∈ sa.trail.ids, id ∉ sb.trail.ids)
      ok.apart ?_ ?_ different at_a at_b
    · intro b sb b_ne at_b id mem
      rcases List.mem_cons.mp mem with rfl | mem
      · exact theirs b sb at_b
      · exact ok.apart i b session sb b_ne.symm running at_b id mem
    · intro a sa a_ne at_a id mem later
      rcases List.mem_cons.mp later with rfl | later
      · exact theirs a sa at_a mem
      · exact ok.apart a i sa session a_ne at_a running id mem later
  · refine fun j sj => Machine.each_set moved (T := fun sj => ∀ id ∈ sj.trail.ids, id < m.nextId + 1)
      (fun j sj at_j id mem => Nat.lt_succ_of_lt (ok.drawn j sj at_j id mem)) ?_
    intro id mem
    rcases List.mem_cons.mp mem with rfl | mem
    · exact Nat.lt_succ_self _
    · exact Nat.lt_succ_of_lt (mine id mem)

variable [DecidableEq R]

/-- Every step of the machine, statement by statement. -/
theorem Consistent.advance {m : Machine S R N E Q A} (ok : Consistent P change m)
    (keeps : ∀ q s s' seen, P.inv s -> change q s s' seen -> P.inv s') {i : Nat}
    {session : Session S R N E Q A} (running : m.Running i session) :
    Consistent P change (m.advance i session) := by
  have current := ok.current i session running
  unfold Machine.advance
  cases rest : session.rest with
  | done answer => exact ok.committed keeps running rest
  | raise error => exact ok.stop i (fun _ same => by cases same)
  | rollback next =>
      have again := (current.reach.sound (current.sound m.committed ok.inv)).1
      rw [rest] at again
      exact ok.move running ⟨again, .start⟩ (fun mode row mem => absurd mem List.not_mem_nil)
        (fun id mem => absurd mem List.not_mem_nil)
  | lock mode row next =>
      dsimp only
      split
      · exact ok
      · rename_i free
        refine ok.move running ⟨current.sound, .lock (rest ▸ current.reach)⟩ ?_ (fun _ mem => mem)
        intro mode' row' mem
        rcases List.mem_cons.mp mem with same | mem
        · cases same
          refine Or.inr (fun j sj different at_j held holds => ?_)
          exact Machine.blocked_eq_false (Bool.not_eq_true _ ▸ free) different at_j holds
        · exact Or.inl mem
  | fetch query next missing =>
      dsimp only
      split
      · exact ok.move running ⟨current.sound, .missing (rest ▸ current.reach)⟩
          (fun _ _ mem => Or.inl mem) (fun _ mem => mem)
      · rename_i b found
        exact ok.move running ⟨current.sound, .fetch (rest ▸ current.reach) found⟩
          (fun _ _ mem => Or.inl mem) (fun _ mem => mem)
  | peek query log next =>
      exact ok.move running ⟨current.sound, .peek _ (rest ▸ current.reach)⟩
        (fun _ _ mem => Or.inl mem) (fun _ mem => mem)
  | fresh next => exact ok.drew running rest
  | write f next =>
      exact ok.move running ⟨current.sound, .write (rest ▸ current.reach)⟩
        (fun _ _ mem => Or.inl mem) (fun _ mem => mem)

theorem Consistent.arrive {m : Machine S R N E Q A} (ok : Consistent P change m)
    {serve : Q -> Prog S R N E A} (disciplined : Disciplined P serve change) (q : Q) :
    Consistent P change (m.step serve (.arrive q)) := by
  have split : ∀ j sj, (m.step serve (.arrive q)).Running j sj ->
      m.Running j sj ∨ sj = ⟨q, serve q, serve q, .start 0⟩ := by
    intro j sj at_j
    simp only [Machine.Running, Machine.step, List.getElem?_append] at at_j
    split at at_j
    · exact Or.inl at_j
    · right
      rcases List.getElem?_eq_some_iff.mp at_j with ⟨_, same⟩
      rw [List.getElem_singleton] at same
      exact (Slot.running.inj same).symm
  refine ⟨ok.inv, ?_, ?_, ?_, ?_, ok.fresh⟩
  · intro j sj at_j
    rcases split j sj at_j with at_j | rfl
    · exact ok.current j sj at_j
    · exact ⟨fun s inv => disciplined.sound q s inv, .start⟩
  · intro a b sa sb different at_a at_b row mode locked
    rcases split a sa at_a with at_a | rfl
    · rcases split b sb at_b with at_b | rfl
      · exact ok.exclusive a b sa sb different at_a at_b row mode locked
      · exact List.not_mem_nil
    · exact absurd locked List.not_mem_nil
  · intro a b sa sb different at_a at_b id mem
    rcases split a sa at_a with at_a | rfl
    · rcases split b sb at_b with at_b | rfl
      · exact ok.apart a b sa sb different at_a at_b id mem
      · exact List.not_mem_nil
    · exact absurd mem List.not_mem_nil
  · intro j sj at_j id mem
    rcases split j sj at_j with at_j | rfl
    · exact ok.drawn j sj at_j id mem
    · exact absurd mem List.not_mem_nil

theorem Consistent.step {m : Machine S R N E Q A} (ok : Consistent P change m)
    {serve : Q -> Prog S R N E A} (disciplined : Disciplined P serve change) (event : Event Q) :
    Consistent P change (m.step serve event) := by
  cases event with
  | arrive q => exact ok.arrive disciplined q
  | advance i =>
      simp only [Machine.step]
      split
      · exact ok.advance disciplined.inv (by assumption)
      · exact ok
  | lose i =>
      simp only [Machine.step]
      split
      · exact ok.stop i (fun _ same => by cases same)
      · exact ok

theorem Consistent.run {m : Machine S R N E Q A} (ok : Consistent P change m)
    {serve : Q -> Prog S R N E A} (disciplined : Disciplined P serve change)
    (events : List (Event Q)) : Consistent P change (m.run serve events) := by
  induction events generalizing m with
  | nil => exact ok
  | cons event events ih => exact ih (ok.step disciplined event)

/-! ## What every run commits -/

/-- One request, alone. -/
def Changes (change : Q -> S -> S -> List N -> Prop) (s s' : S) : Prop :=
  ∃ q seen, change q s s' seen

theorem Consistent.step_committed {m : Machine S R N E Q A} (ok : Consistent P change m)
    (serve : Q -> Prog S R N E A) (event : Event Q) :
    (m.step serve event).committed = m.committed ∨
      Changes change m.committed (m.step serve event).committed := by
  cases event with
  | arrive q => exact Or.inl rfl
  | advance i =>
      simp only [Machine.step]
      split
      · rename_i session running
        unfold Machine.advance
        cases rest : session.rest with
        | done answer => exact Or.inr ⟨_, _, (ok.commit ⟨running, answer, rest⟩).1⟩
        | lock mode row next => dsimp only; split <;> exact Or.inl rfl
        | fetch query next missing => dsimp only; split <;> exact Or.inl rfl
        | raise error => exact Or.inl rfl
        | rollback next => exact Or.inl rfl
        | peek query log next => exact Or.inl rfl
        | fresh next => exact Or.inl rfl
        | write f next => exact Or.inl rfl
      · exact Or.inl rfl
  | lose i =>
      simp only [Machine.step]
      split <;> exact Or.inl rfl

/-- **Atomicity.**  The rows committed by any schedule are reached by requests
acting one at a time. -/
theorem Consistent.run_committed {m : Machine S R N E Q A} (ok : Consistent P change m)
    {serve : Q -> Prog S R N E A} (disciplined : Disciplined P serve change)
    (events : List (Event Q)) :
    Relation.ReflTransGen (Changes change) m.committed (m.run serve events).committed := by
  induction events generalizing m with
  | nil => exact .refl
  | cons event events ih =>
      have rest := ih (ok.step disciplined event)
      rcases ok.step_committed serve event with same | changed
      · exact same ▸ rest
      · exact .head changed rest

/-- An invariant of single requests is an invariant of every interleaving. -/
theorem Consistent.invariant {m : Machine S R N E Q A} (ok : Consistent P change m)
    {serve : Q -> Prog S R N E A} (disciplined : Disciplined P serve change)
    {J : S -> Prop} (now : J m.committed)
    (keeps : ∀ q s s' seen, P.inv s -> J s -> change q s s' seen -> J s')
    (events : List (Event Q)) : J (m.run serve events).committed := by
  induction events generalizing m with
  | nil => exact now
  | cons event events ih =>
      refine ih (ok.step disciplined event) ?_
      rcases ok.step_committed serve event with same | ⟨q, seen, changed⟩
      · exact same ▸ now
      · exact keeps q _ _ seen ok.inv now changed

end Machine

end Transactions
end Shiftlush
