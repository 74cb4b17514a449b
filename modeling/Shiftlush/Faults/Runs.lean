import Shiftlush.Faults.Course
import Shiftlush.Faults.ServicesSound

namespace Shiftlush
namespace Faults

open Fleet (FaultStatus)
open Transactions

/-!
# What every commit does to a fault

A session reads the time, and the faults a report may be merged into, while it
holds what it will write, so both are still true of the rows it commits to.
Each commit therefore takes every fault a step further on its course, or leaves
it where it is.
-/

variable {s s' : Board} {id : Nat}

/-! ## What a session may count on -/

def Fault.stamp (fault : Fault) : FaultStatus -> Option Nat
  | .open => some fault.reportedAt
  | .assigned => fault.assignedAt
  | .onSite => fault.onSiteAt
  | .resolved => fault.resolvedAt
  | .closed => fault.closedAt
  | .cancelled => fault.cancelledAt

def Fault.course (fault : Fault) : Course := ⟨fault.status, fault.stamp⟩

/-- No stamp is ahead of the clock. -/
def Board.Timed (v : Board) : Prop := ∀ id fault, v.faults.get? id = some fault -> fault.course.Until v.clock

/-- What a note means as long as its locks are held. -/
def Board.Means (v : Board) : Note -> Prop
  | .now moment => moment ≤ v.clock
  | .stamp fault moment => moment ≤ v.clock ∧ ∃ row, v.faults.get? fault = some row ∧ row.course.Until moment
  | .candidates elevator moment ids => ∀ id fault, v.faults.get? id = some fault ->
      mergesInto elevator moment fault = true -> id ∈ ids
  | .people _ _ => True

def Note.locks : Note -> List Row
  | .now _ => []
  | .stamp fault _ => [.fault fault]
  | .candidates elevator _ _ => [.elevator elevator]
  | .people _ _ => []

/-- A fault merged into later might have been merged into before: it was waiting. -/
theorem Onward.mergesInto {a b : Fault} (onward : Onward a b) {elevator moment : Nat}
    (merges : mergesInto elevator moment b = true) : mergesInto elevator moment a = true := by
  unfold Faults.mergesInto at merges ⊢
  rw [Bool.and_eq_true, decide_eq_true_iff] at merges ⊢
  rw [← onward.elevator, ← onward.channel, ← onward.reportedAt]
  exact ⟨merges.1, onward.waiting merges.2⟩

theorem publicReport_of_merges {v : Board} {fault : Fault} {elevator moment : Nat}
    (found : v.faults.get? id = some fault) (merges : mergesInto elevator moment fault = true) :
    v.publicReport elevator id = some fault.reportedAt := by
  unfold Faults.mergesInto at merges
  rw [Bool.and_eq_true, decide_eq_true_iff] at merges
  unfold Board.publicReport
  rw [found]
  simp [Option.filter, merges.1.1, merges.1.2.1]

theorem exists_of_publicReport {v : Board} {elevator moment : Nat} (reported : v.publicReport elevator id = some moment) :
    ∃ fault, v.faults.get? id = some fault := by
  unfold Board.publicReport at reported
  cases found : v.faults.get? id with
  | none =>
      rw [found] at reported
      cases reported
  | some fault => exact ⟨fault, rfl⟩

/-- Nobody but the holder of the lift adds a candidate. -/
theorem candidates_kept {elevator moment : Nat} {ids : List Nat} (kept : Row.kept (.elevator elevator) s s')
    (later : s.Later s') (means : s.Means (.candidates elevator moment ids)) :
    s'.Means (.candidates elevator moment ids) := by
  intro id fault' found' merges'
  have reported := publicReport_of_merges found' merges'
  rw [show s'.publicReport elevator id = s.publicReport elevator id from kept id] at reported
  rcases exists_of_publicReport reported with ⟨fault, found⟩
  rcases later.faults id fault found with ⟨_, found'', onward⟩
  rw [found'] at found''
  cases found''
  exact means id fault found (onward.mergesInto merges')

def guard : Guard convention Board.Timed where
  means := Board.Means
  locks := Note.locks
  taken note s timed noted := by
    cases note with
    | now moment => exact le_of_eq noted
    | stamp fault moment =>
        rcases noted with ⟨rfl, row, found⟩
        exact ⟨le_rfl, row, found, timed fault row found⟩
    | candidates elevator moment ids => exact noted
    | people fault users => trivial
  stable note s s' kept later means := by
    have clock : s.clock ≤ s'.clock := (show s.Later s' from later).clock
    cases note with
    | now moment => exact (show moment ≤ s.clock from means).trans clock
    | stamp fault moment =>
        rcases means with ⟨within, row, found, earlier⟩
        have same : Row.kept (.fault fault) s s' := kept _ List.mem_cons_self
        exact ⟨within.trans clock, row, (same row found).1.trans found, earlier⟩
    | candidates elevator moment ids => exact candidates_kept (kept _ List.mem_cons_self) later means
    | people fault users => trivial

/-! ## Programs that keep the locks of their notes -/

variable {t : Trail Board Row Note}

theorem guarded_locked {post : Fault -> Trail Board Row Note -> Prop}
    (after : ∀ fault, post fault (t.hold .update (.fault id))) : Guarded guard (locked id) t post := by
  unfold locked
  simp only [Prog.bind_eq, guarded_bind, guarded_lock, guarded_fetch]
  exact after

theorem guarded_now {post : Nat -> Trail Board Row Note -> Prop} (locked : t.Locked (.fault id))
    (after : ∀ moment, post moment (t.see [.stamp id moment])) : Guarded guard (now id) t post := by
  intro moment
  refine ⟨?_, after moment⟩
  intro note mem row guards
  cases List.mem_singleton.mp mem
  cases List.mem_singleton.mp guards
  exact locked

/-- A note without locks. -/
theorem guarded_free {β : Type} {query : Board -> β} {log : β -> List Note} {post : β -> Trail Board Row Note -> Prop}
    (free : ∀ b, ∀ note ∈ log b, note.locks = []) (after : ∀ b, post b (t.see (log b))) :
    Guarded guard (peekLogged query log : FaultProg β) t post := by
  intro b
  refine ⟨?_, after b⟩
  intro note mem row guards
  rw [show guard.locks note = [] from free b note mem] at guards
  cases guards

theorem guarded_announceReport {fault : Fault} {post : Unit -> Trail Board Row Note -> Prop}
    (after : ∀ t', post () t') : Guarded guard (announceReport id fault) t post := by
  unfold announceReport
  simp only [Prog.bind_eq, guarded_bind]
  apply guarded_free
  · intro people note mem
    rw [List.mem_singleton.mp mem]
    rfl
  · exact fun people => after _

theorem guarded_announceAssignment {fault : Fault} {technician assignedAt : Nat} :
    Guarded guard (announceAssignment id fault technician assignedAt) t (fun _ _ => True) := by
  unfold announceAssignment
  split_ifs
  · trivial
  · exact fun _ => ⟨fun _ mem => (by cases mem), trivial⟩

theorem guarded_firstToMerge {elevator moment : Nat} {ids : List Nat}
    {post : Option (Nat × Fault) -> Trail Board Row Note -> Prop} (after : ∀ found t', post found t') :
    Guarded guard (firstToMerge elevator moment ids) t post := by
  induction ids generalizing t with
  | nil => exact after none t
  | cons id ids ih =>
      unfold firstToMerge
      simp only [Prog.bind_eq, guarded_bind, guarded_lock, guarded_fetch]
      intro fault
      split_ifs
      · exact after _ _
      · exact ih

/-- The time that a report reads. -/
theorem guarded_clock {post : Nat -> Trail Board Row Note -> Prop} (after : ∀ moment, post moment (t.see [.now moment])) :
    Guarded guard (peekLogged Board.clock (fun now => [.now now]) : FaultProg Nat) t post := by
  apply guarded_free
  · intro moment note mem
    rw [List.mem_singleton.mp mem]
    rfl
  · exact after

theorem guarded_serve (q : Request) : Guarded guard (serve q) (.start 0) (fun _ _ => True) := by
  cases q with
  | tick seconds => trivial
  | people users customers assignments => trivial
  | cover lines => trivial
  | reportByStaff new =>
      unfold serve reportByStaff
      simp only [Prog.bind_eq, guarded_bind]
      apply guarded_clock
      intro moment id
      apply guarded_announceReport
      intro t'
      cases new.technician with
      | none => trivial
      | some technician => exact guarded_announceAssignment
  | reportByPortal elevator report =>
      unfold serve reportByPortal
      simp only [Prog.bind_eq, guarded_bind]
      apply guarded_clock
      intro moment id
      exact guarded_announceReport (fun _ => trivial)
  | reportPublic elevator report =>
      unfold serve reportPublic
      simp only [Prog.bind_eq, guarded_bind, guarded_lock]
      apply guarded_clock
      intro moment ids
      refine ⟨?_, ?_⟩
      · intro note mem row guards
        cases List.mem_singleton.mp mem
        cases List.mem_singleton.mp guards
        exact locked_here _ _
      · apply guarded_firstToMerge
        intro existing t'
        cases existing with
        | none =>
            intro id
            exact guarded_announceReport (fun _ => trivial)
        | some found =>
            unfold merge
            simp only [Prog.bind_eq, guarded_bind, guarded_write]
            split_ifs
            · exact guarded_announceReport (fun _ => trivial)
            · trivial
  | assign id technician =>
      unfold serve assign
      simp only [Prog.bind_eq, guarded_bind]
      apply guarded_locked
      intro fault
      rw [guarded_require]
      intro _
      split_ifs
      · trivial
      · simp only [guarded_bind]
        apply guarded_now (locked_here _ _)
        exact fun moment => guarded_announceAssignment
  | arrive id =>
      unfold serve arrive
      simp only [Prog.bind_eq, guarded_bind]
      apply guarded_locked
      intro fault
      rw [guarded_require]
      exact fun _ => guarded_now (locked_here _ _) (fun _ => trivial)
  | resolve id resolutionNotes partsUsed =>
      unfold serve resolve
      simp only [Prog.bind_eq, guarded_bind]
      apply guarded_locked
      intro fault
      rw [guarded_require]
      intro _
      apply guarded_now (locked_here _ _)
      intro moment
      rw [guarded_peek]
      intro billable
      exact fun _ => ⟨fun _ mem => (by cases mem), trivial⟩
  | close id =>
      unfold serve close
      simp only [Prog.bind_eq, guarded_bind]
      apply guarded_locked
      intro fault
      rw [guarded_require]
      exact fun _ => guarded_now (locked_here _ _) (fun _ => trivial)
  | cancel id reason =>
      unfold serve cancel
      simp only [Prog.bind_eq, guarded_bind]
      apply guarded_locked
      intro fault
      rw [guarded_require]
      exact fun _ => guarded_now (locked_here _ _) (fun _ => trivial)
  | edit id changes =>
      unfold serve edit
      simp only [Prog.bind_eq, guarded_bind]
      apply guarded_locked
      intro fault
      rw [guarded_write]
      split_ifs
      · exact guarded_announceReport (fun _ => trivial)
      · trivial

/-! ## What a commit makes of a fault -/

/-- Every fault there was is a step further, or as far as it was, and the others have
just begun. -/
structure Board.Lives (v w : Board) : Prop where
  clock : v.clock ≤ w.clock
  goes : ∀ id fault, v.faults.get? id = some fault -> ∃ fault', w.faults.get? id = some fault' ∧
    ∃ moment, moment ≤ w.clock ∧ Course.Step moment fault.course fault'.course
  begins : ∀ id fault', v.faults.get? id = none -> w.faults.get? id = some fault' ->
    ∃ moment, moment ≤ w.clock ∧ Course.Begins moment fault'.course

theorem Board.Lives.timed {v w : Board} (lives : v.Lives w) (timed : v.Timed) : w.Timed := by
  intro id fault' found'
  cases found : v.faults.get? id with
  | none =>
      rcases lives.begins id fault' found found' with ⟨moment, within, begins⟩
      exact begins.until.mono within
  | some fault =>
      rcases lives.goes id fault found with ⟨_, there, moment, within, step⟩
      rw [found'] at there
      cases there
      exact step.until ((timed id fault found).mono lives.clock) within

theorem lives_around {v w : Board} (clock : v.clock ≤ w.clock) (faults : w.faults = v.faults) : v.Lives w := by
  refine ⟨clock, ?_, ?_⟩
  · intro id fault found
    exact ⟨fault, faults ▸ found, w.clock, le_rfl, .stays _⟩
  · intro id fault' absent found'
    rw [faults, absent] at found'
    cases found'

theorem Opens.lives {row : Fault} {people : List Nat} (opens : Opens id row people s s') {moment : Nat}
    (within : moment ≤ s.clock) (begins : Course.Begins moment row.course) : s.Lives s' := by
  refine ⟨opens.clock.ge, ?_, ?_⟩
  · intro id' fault found
    refine ⟨fault, ?_, s'.clock, le_rfl, .stays _⟩
    rw [opens.faults]
    exact Rows.get?_insert_of_some found
  · intro id' fault' absent found'
    rw [opens.faults, Rows.get?_insert, absent, Option.none_or] at found'
    split_ifs at found'
    cases found'
    exact ⟨moment, opens.clock ▸ within, begins⟩

theorem Moves.lives {g : Fault -> Fault} {fault : Fault} (moves : Moves id g fault s s') {moment : Nat}
    (within : moment ≤ s.clock) (step : Course.Step moment fault.course (g fault).course) : s.Lives s' := by
  refine ⟨moves.clock.ge, ?_, ?_⟩
  · intro id' fault' found'
    rw [moves.faults, Rows.get?_update]
    split_ifs with here
    · rw [here, moves.found] at found'
      cases found'
      exact ⟨g fault, by rw [here, moves.found]; rfl, moment, moves.clock ▸ within, step⟩
    · exact ⟨fault', found', s'.clock, le_rfl, .stays _⟩
  · intro id' fault' absent found'
    rw [moves.faults, Rows.update_absent absent] at found'
    cases found'

theorem course_reach {a b : Fault} {stage : FaultStatus} {moment : Nat} (status : b.status = stage)
    (set : b.stamp stage = some moment) (others : ∀ other, other ≠ stage -> b.stamp other = a.stamp other) :
    b.course = a.course.reach stage moment := by
  have stamp : b.stamp = Function.update a.stamp stage (some moment) := by
    funext other
    by_cases here : other = stage
    · rw [here, Function.update_self, set]
    · rw [Function.update_of_ne here, others other here]
  unfold Fault.course Course.reach
  rw [status, stamp]

/-- A transition to a stage that may follow, at the time it has read. -/
theorem Moves.reaches {g : Fault -> Fault} {fault : Fault} (moves : Moves id g fault s s') (stage : FaultStatus)
    {moment : Nat} (means : s.Means (.stamp id moment)) (leads : stage ∈ follows fault.status)
    (status : (g fault).status = stage) (set : (g fault).stamp stage = some moment)
    (others : ∀ other, other ≠ stage -> (g fault).stamp other = fault.stamp other) : s.Lives s' := by
  rcases means with ⟨within, row, found, earlier⟩
  rw [moves.found] at found
  cases found
  apply moves.lives within
  rw [course_reach status set others]
  exact .reaches leads earlier

theorem course_reported {fault : Fault} {moment : Nat} (status : fault.status = .open)
    (set : fault.stamp .open = some moment) (others : ∀ other, other ≠ .open -> fault.stamp other = none) :
    fault.course = Course.reported moment := by
  have stamp : fault.stamp = fun stage => if stage = .open then some moment else none := by
    funext other
    by_cases here : other = .open
    · rw [here, set, if_pos rfl]
    · rw [others other here, if_neg here]
  unfold Fault.course Course.reported
  rw [status, stamp]

theorem begins_public (report : PublicReport) (channel : Fleet.FaultChannel) (elevator moment : Nat) :
    Course.Begins moment (report.row channel elevator moment).course := by
  rw [course_reported rfl rfl]
  · exact .reported
  · intro other later
    cases other <;> first | rfl | exact absurd rfl later

theorem begins_staff (new : StaffReport) (moment : Nat) : Course.Begins moment (new.row moment).course := by
  -- The row without its technician, whom it may be given at once.
  have reported : ({ new with technician := none }.row moment).course = Course.reported moment := by
    apply course_reported rfl rfl
    intro other later
    cases other <;> first | rfl | exact absurd rfl later
  cases assigned : new.technician with
  | none =>
      have same : new.row moment = { new with technician := none }.row moment := by
        rw [← assigned]
      rw [same, reported]
      exact .reported
  | some technician =>
      have course : (new.row moment).course =
          ({ new with technician := none }.row moment).course.reach .assigned moment := by
        apply course_reach
        · simp [StaffReport.row, assigned]
        · simp [StaffReport.row, Fault.stamp, assigned]
        · intro other different
          cases other <;> first | rfl | exact absurd rfl different
      rw [course, reported]
      exact .assigned

/-- **What a commit does.**  Whatever the request, every fault stays where it is or goes
to a stage that may follow. -/
theorem Change.lives {q : Request} {seen : List Note} (change : Change q s s' seen)
    (means : ∀ note ∈ seen, s.Means note) : s.Lives s' := by
  cases change with
  | ticks => exact lives_around (Nat.le_add_right _ _) rfl
  | peopled => exact lives_around le_rfl rfl
  | covered => exact lives_around le_rfl rfl
  | staff opens =>
      refine opens.lives ?_ (begins_staff _ _)
      exact means (.now _) (List.mem_cons_of_mem _ List.mem_cons_self)
  | portal opens =>
      refine opens.lives ?_ (begins_public _ _ _ _)
      exact means (.now _) (List.mem_cons_of_mem _ List.mem_cons_self)
  | opens opens others =>
      refine opens.lives ?_ (begins_public _ _ _ _)
      exact means (.now _) (List.mem_cons_of_mem _ (List.mem_cons_of_mem _ List.mem_cons_self))
  | merges moves => exact moves.lives (Nat.zero_le _) (.stays _)
  | escalates moves => exact moves.lives (Nat.zero_le _) (.stays _)
  | assigns moves allowed =>
      refine moves.reaches .assigned (means _ List.mem_cons_self) ?_ rfl rfl ?_
      · rcases allowed with «open» | assigned
        · rw [«open»]
          decide
        · rw [assigned]
          decide
      · intro other different
        cases other <;> first | rfl | exact absurd rfl different
  | assigned => exact lives_around le_rfl rfl
  | arrives moves allowed =>
      refine moves.reaches .onSite (means _ List.mem_cons_self) ?_ rfl rfl ?_
      · rw [allowed]
        decide
      · intro other different
        cases other <;> first | rfl | exact absurd rfl different
  | resolves moves allowed =>
      refine moves.reaches .resolved (means _ List.mem_cons_self) ?_ rfl rfl ?_
      · rw [allowed]
        decide
      · intro other different
        cases other <;> first | rfl | exact absurd rfl different
  | closes moves allowed =>
      refine moves.reaches .closed (means _ List.mem_cons_self) ?_ rfl rfl ?_
      · rw [allowed]
        decide
      · intro other different
        cases other <;> first | rfl | exact absurd rfl different
  | @cancels _ _ _ fault _ _ moves allowed =>
      refine moves.reaches .cancelled (means _ List.mem_cons_self) ?_ rfl rfl ?_
      · revert allowed
        cases fault.status <;> decide
      · intro other different
        cases other <;> first | rfl | exact absurd rfl different
  | edits moves => exact moves.lives (Nat.zero_le _) (.stays _)

/-! ## Runs -/

theorem disciplined : Disciplined convention serve Change := ⟨fun q _ _ => sound_serve q, fun _ _ _ _ _ _ => trivial⟩

theorem governed : Machine.Governed guard serve Change where
  disciplined := disciplined
  guarded := guarded_serve
  keeps _ _ _ _ _ timed means change := (change.lives means).timed timed

/-- The desk of a firm without faults, after any schedule. -/
def deskAfter (clock : Nat) (events : List (Event Request)) : Desk :=
  Transitions.run (Machine.step serve) (Machine.init (Board.empty clock) 0) events

/-- The faults committed by then. -/
def boardAfter (clock : Nat) (events : List (Event Request)) : Board := (deskAfter clock events).committed

theorem orderly_empty (clock : Nat) :
    Machine.Orderly guard Change (Machine.init (Board.empty clock) 0 : Desk) := by
  apply Machine.orderly_init trivial
  · intro id _
    exact ⟨rfl, fun n mem => by cases mem⟩
  · intro id fault found
    cases found

theorem orderly_deskAfter (clock : Nat) (events : List (Event Request)) :
    Machine.Orderly guard Change (deskAfter clock events) :=
  (orderly_empty clock).run governed events

theorem Orderly.lives {m : Desk} (orderly : Machine.Orderly guard Change m) (event : Event Request) :
    m.committed.Lives (m.step serve event).committed := by
  rcases orderly.step_cases serve event with ⟨_, same⟩ | ⟨session, _, change, _, means⟩
  · rw [same]
    exact lives_around le_rfl rfl
  · exact change.lives means

end Faults
end Shiftlush
