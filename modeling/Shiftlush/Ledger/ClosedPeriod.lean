import Shiftlush.Transactions.Notes
import Shiftlush.Ledger.Runs

namespace Shiftlush
namespace Ledger

open Transactions

/-!
# The closed period

`check_date` reads the firm's closed period without a lock, and
`set_closed_through` waits for nobody that has only read it.  A posting whose
date has been checked can therefore be overtaken: the period is closed over its
date, and then it commits.  This module says when a movement is dated after the
period closed at its commit, that it always is if nobody is overtaken, and that
being overtaken does happen.
-/

abbrev LedgerMachine := Machine Books Row Note LedgerError Request Unit

namespace Books

/-- `day` lies after the closed period of the firm. -/
def isOpen (v : Books) (firm : Id) (day : Date) : Bool :=
  (v.companies.get? firm).any (·.opens day)

/-- What `v'` has more movements than `v` is dated after the period `v` closes. -/
def addsOpen (v v' : Books) : Bool :=
  (v'.movements.drop v.movements.length).all (fun r => v.isOpen r.2.company r.2.date)

/-- The firm's movements up to a day. -/
def asOf (v : Books) (firm : Id) (day : Date) : Rows Movement :=
  v.movements.filter (fun r => decide (r.2.company = firm ∧ r.2.date ≤ day))

/-- The firm's books are closed through `day` at least. -/
def closedFor (v : Books) (firm : Id) (day : Date) : Bool :=
  (v.companies.get? firm).any (fun company => company.ledgerClosedThrough.any (day ≤ ·))

end Books

/-- Every movement a run commits is dated after the period closed at that moment. -/
def closedLaw : LedgerMachine -> List (Event Request) -> Bool
  | _, [] => true
  | m, event :: events =>
      m.committed.addsOpen (m.step serve event).committed && closedLaw (m.step serve event) events

/-- The firm stays closed through `day` while the run lasts. -/
def staysClosed (firm : Id) (day : Date) : LedgerMachine -> List (Event Request) -> Bool
  | _, [] => true
  | m, event :: events =>
      m.committed.closedFor firm day && staysClosed firm day (m.step serve event) events

/-! ## Being overtaken -/

/-- The period a step closes, and for which firm. -/
def closing (m : LedgerMachine) (event : Event Request) : Option (Id × Date) :=
  match m.committing event with
  | none => none
  | some session =>
      match session.request with
      | .setClosedThrough firm (some day) => some (firm, day)
      | _ => none

def Note.within (firm : Id) (day : Date) : Note -> Bool
  | .dateOpen firm' day' => decide (firm' = firm ∧ day' ≤ day)

/-- The sessions that have checked a date in the period this step closes. -/
def overtaken (m : LedgerMachine) (event : Event Request) : List Nat :=
  match closing m event with
  | none => []
  | some (firm, day) =>
      (List.range m.slots.length).filter (fun j =>
        match m.slots[j]? with
        | some (.running session) => session.trail.seen.any (Note.within firm day)
        | _ => false)

/-- No session commits once it has been overtaken; `late` are those that have. -/
def neverOvertaken : List Nat -> LedgerMachine -> List (Event Request) -> Bool
  | _, _, [] => true
  | late, m, event :: events =>
      late.all (fun j => decide (event ≠ .advance j) || (m.committing event).isNone) &&
        neverOvertaken (overtaken m event ++ late) (m.step serve event) events

/-- What a session has noted is still true, unless it has been overtaken. -/
def Tracked (m : LedgerMachine) (late : List Nat) : Prop :=
  ∀ j session, m.Running j session -> ∀ note ∈ session.trail.seen,
    noted m.committed note ∨ j ∈ late

theorem mem_overtaken {m : LedgerMachine} {event : Event Request} {firm : Id} {day : Date} {j : Nat}
    {session : Session Books Row Note LedgerError Request Unit} {note : Note}
    (closes : closing m event = some (firm, day)) (running : m.Running j session)
    (mem : note ∈ session.trail.seen) (within : note.within firm day = true) :
    j ∈ overtaken m event := by
  have running : m.slots[j]? = some (.running session) := running
  have lt : j < m.slots.length := (List.getElem?_eq_some_iff.mp running).1
  unfold overtaken
  rw [closes]
  refine List.mem_filter.mpr ⟨List.mem_range.mpr lt, ?_⟩
  simp only [running]
  exact List.any_eq_true.mpr ⟨note, mem, within⟩

/-- A commit leaves a note true unless it closes the period over it. -/
theorem noted_change {q : Request} {s s' : Books} {seen : List Note} (change : Change q s s' seen)
    {firm : Id} {day : Date} (before : noted s (.dateOpen firm day)) :
    noted s' (.dateOpen firm day) ∨
      ∃ day', q = .setClosedThrough firm (some day') ∧ day ≤ day' := by
  rcases before with ⟨row, found, opens⟩
  rcases change.companies with same | ⟨firm', day', request, companies⟩
  · left
    exact ⟨row, same ▸ found, opens⟩
  · by_cases here : firm = firm'
    · subst here
      have updated : s'.companies.get? firm = some { row with ledgerClosedThrough := day' } := by
        have updated := Rows.get?_update_self s.companies firm
          (fun c => { c with ledgerClosedThrough := day' })
        rw [found] at updated
        rw [companies]
        exact updated
      cases day' with
      | none => exact Or.inl ⟨_, updated, rfl⟩
      | some day' =>
          by_cases later : day' < day
          · exact Or.inl ⟨_, updated, decide_eq_true later⟩
          · exact Or.inr ⟨day', request, Int.not_lt.mp later⟩
    · left
      have kept : (s.companies.update firm' (fun c => { c with ledgerClosedThrough := day' })).get?
          firm = s.companies.get? firm := Rows.get?_update_of_ne here
      refine ⟨row, ?_, opens⟩
      rw [companies]
      exact kept.trans found

section Steps

variable {m : LedgerMachine}

/-- What one step commits. -/
theorem committed_step (ok : Consistent convention Change m) {event : Event Request}
    {session : Session Books Row Note LedgerError Request Unit}
    (commits : m.committing event = some session) :
    Change session.request m.committed (m.step serve event).committed session.trail.seen := by
  rcases Machine.committing_spec commits with ⟨i, same, commit⟩
  have changed := (ok.commit commit).1
  rw [Machine.step_committed, commits]
  exact changed

theorem unchanged_step {event : Event Request} (none : m.committing event = none) :
    (m.step serve event).committed = m.committed := by
  rw [Machine.step_committed, none]
  rfl

theorem Tracked.step (ok : Consistent convention Change m) {late : List Nat}
    (tracked : Tracked m late) (event : Event Request) :
    Tracked (m.step serve event) (overtaken m event ++ late) := by
  intro j session running note mem
  rcases ok.noted_step serve event running mem with ⟨before, at_j, old⟩ | ⟨true_now, none⟩
  · rcases tracked j before at_j note old with true_before | lost
    · cases commits : m.committing event with
      | none =>
          left
          rw [unchanged_step commits]
          exact true_before
      | some closer =>
          rcases note with ⟨firm, day⟩
          rcases noted_change (committed_step ok commits) true_before with still | ⟨day', request, le⟩
          · exact Or.inl still
          · right
            have closes : closing m event = some (firm, day') := by
              unfold closing
              rw [commits]
              simp only [request]
            exact List.mem_append_left _
              (mem_overtaken closes at_j old (decide_eq_true ⟨rfl, le⟩))
    · exact Or.inr (List.mem_append_right _ lost)
  · left
    rw [unchanged_step none]
    exact true_now

/-- The movements a step adds. -/
theorem appended_step (ok : Consistent convention Change m) (event : Event Request) :
    ∃ written, (m.step serve event).committed.movements = m.committed.movements ++ written ∧
      ∀ r ∈ written, ∃ j session, event = .advance j ∧ m.committing event = some session ∧
        m.Running j session ∧ Note.dateOpen r.2.company r.2.date ∈ session.trail.seen := by
  cases commits : m.committing event with
  | none =>
      refine ⟨[], ?_, fun _ mem => absurd mem List.not_mem_nil⟩
      rw [unchanged_step commits, List.append_nil]
  | some session =>
      rcases Machine.committing_spec commits with ⟨i, same, commit⟩
      rcases (committed_step ok commits).step with ⟨written, step, notes⟩
      refine ⟨written, step.movements, ?_⟩
      intro r mem
      exact ⟨i, session, same, rfl, commit.1, notes r mem⟩

theorem addsOpen_step (ok : Consistent convention Change m) {late : List Nat}
    (tracked : Tracked m late) {event : Event Request}
    (clean : ∀ j ∈ late, event ≠ .advance j ∨ m.committing event = none) :
    m.committed.addsOpen (m.step serve event).committed = true := by
  rcases appended_step ok event with ⟨written, movements, notes⟩
  unfold Books.addsOpen
  rw [movements, List.drop_left, List.all_eq_true]
  intro r mem
  rcases notes r mem with ⟨j, session, same, commits, running, at_note⟩
  rcases tracked j session running _ at_note with ⟨row, found, opens⟩ | lost
  · unfold Books.isOpen
    rw [found]
    exact opens
  · rcases clean j lost with other | none
    · exact absurd same other
    · rw [commits] at none
      cases none

/-- A run in which nobody is overtaken, by induction on its steps. -/
theorem closedLaw_of_tracked (ok : Consistent convention Change m) {late : List Nat}
    (tracked : Tracked m late) {events : List (Event Request)}
    (clean : neverOvertaken late m events = true) : closedLaw m events = true := by
  induction events generalizing m late with
  | nil => rfl
  | cons event events ih =>
      unfold neverOvertaken at clean
      rw [Bool.and_eq_true, List.all_eq_true] at clean
      unfold closedLaw
      rw [Bool.and_eq_true]
      constructor
      · apply addsOpen_step ok tracked
        intro j mem
        simpa only [Bool.or_eq_true, decide_eq_true_eq, Option.isNone_iff_eq_none] using
          clean.1 j mem
      · exact ih (ok.step disciplined event) (tracked.step ok event) clean.2

theorem closedLaw_append {before after : List (Event Request)}
    (law : closedLaw m (before ++ after) = true) : closedLaw (m.run serve before) after = true := by
  induction before generalizing m with
  | nil => exact law
  | cons event before ih =>
      rw [List.cons_append] at law
      unfold closedLaw at law
      rw [Bool.and_eq_true] at law
      exact ih law.2

/-- What lies in a closed period is final. -/
theorem asOf_final (ok : Consistent convention Change m) {events : List (Event Request)}
    (law : closedLaw m events = true) {firm : Id} {day : Date}
    (closed : staysClosed firm day m events = true) :
    (m.run serve events).committed.asOf firm day = m.committed.asOf firm day := by
  induction events generalizing m with
  | nil => rfl
  | cons event events ih =>
      unfold closedLaw at law
      unfold staysClosed at closed
      rw [Bool.and_eq_true] at law closed
      have rest := ih (ok.step disciplined event) law.2 closed.2
      refine Eq.trans rest ?_
      rcases appended_step ok event with ⟨written, movements, _⟩
      have opened := law.1
      unfold Books.addsOpen at opened
      rw [movements, List.drop_left, List.all_eq_true] at opened
      have none : written.filter (fun r => decide (r.2.company = firm ∧ r.2.date ≤ day)) = [] := by
        apply List.filter_eq_nil_iff.mpr
        intro r mem within
        rcases of_decide_eq_true within with ⟨company, le⟩
        have opens := opened r mem
        have through := closed.1
        unfold Books.isOpen at opens
        unfold Books.closedFor at through
        rw [company] at opens
        cases found : m.committed.companies.get? firm with
        | none =>
            rw [found] at opens
            cases opens
        | some row =>
            rw [found] at opens through
            simp only [Option.any_some] at opens through
            unfold Company.opens at opens
            cases closedThrough : row.ledgerClosedThrough with
            | none =>
                rw [closedThrough] at through
                cases through
            | some last =>
                rw [closedThrough] at opens through
                have later : last < r.2.date := of_decide_eq_true opens
                have covers : day ≤ last := of_decide_eq_true through
                exact absurd (Int.lt_of_lt_of_le later le) (Int.not_lt.mpr covers)
      unfold Books.asOf
      rw [movements, List.filter_append, none, List.append_nil]

end Steps

/-! ## The law, and how it is broken -/

/-- If nobody commits once overtaken, every movement is dated after the period
closed at its commit, and a closed period stays as it is. -/
theorem closed_period_kept {s : Books} {nextId : Nat} (unposted : Unposted s nextId)
    {events : List (Event Request)}
    (clean : neverOvertaken [] (Machine.init s nextId) events = true) :
    closedLaw (Machine.init s nextId) events = true ∧
      ∀ before after firm day, events = before ++ after ->
        staysClosed firm day (Machine.run serve (Machine.init s nextId) before) after = true ->
        (Machine.run serve (Machine.init s nextId) events).committed.asOf firm day =
          (Machine.run serve (Machine.init s nextId) before).committed.asOf firm day := by
  have start := unposted.consistent
  have fresh : Tracked (Machine.init s nextId) [] := by
    intro j session running
    simp only [Machine.Running, Machine.init, List.getElem?_nil] at running
    cases running
  have law := closedLaw_of_tracked start fresh clean
  refine ⟨law, ?_⟩
  intro before after firm day split closed
  subst split
  rw [Machine.run_append]
  exact asOf_final (start.run disciplined before) (closedLaw_append law) closed

/-- A payment checks its date, the period is closed over it, the payment commits. -/
def overtakingRun : List (Event Request) :=
  .arrive (.recordPaymentOut 1 2 (.ofCents 500) (some .cash) 90) ::
    .arrive (.setClosedThrough 3 (some 95)) ::
    (List.replicate 12 (.advance 0) ++ List.replicate 12 (.advance 1) ++
      List.replicate 12 (.advance 0))

/-- The same requests, one after the other. -/
def orderlyRun : List (Event Request) :=
  served 0 (.recordPaymentOut 1 2 (.ofCents 500) (some .cash) 90) ++
    served 1 (.setClosedThrough 3 (some 95)) ++
    served 2 (.recordPaymentOut 1 2 (.ofCents 700) (some .cash) 92)

theorem orderlyRun_kept : closedLaw (Machine.init smallFirm 100) orderlyRun = true :=
  (closed_period_kept smallFirm_unposted (by decide +kernel)).1

theorem closed_period_broken : ¬ ∀ s nextId events, Unposted s nextId ->
    closedLaw (Machine.init s nextId) events = true := by
  intro law
  have broken : closedLaw (Machine.init smallFirm 100) overtakingRun = false := by decide +kernel
  rw [law smallFirm 100 overtakingRun smallFirm_unposted] at broken
  cases broken

end Ledger
end Shiftlush
