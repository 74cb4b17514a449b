import Shiftlush.Faults.Runs

namespace Shiftlush
namespace Faults

open Fleet (FaultPriority publicMergeWindow)
open Transactions

/-!
# Public reports

A report from the sticker of a lift opens a fault or is appended to one, and two
public faults that may still be merged into are never close in time.  What can
go missing is the announcement: the second emergency of a fault has the key of
the first, and whoever holds the first is not told again.
-/

variable {s s' : Board} {id elevator : Nat} {report : PublicReport} {seen : List Note}

/-! ## The law of a report -/

/-- All of them are told, and had not been. -/
def Announced (id : Nat) (people : List Nat) (s s' : Board) : Prop :=
  ∀ user ∈ people, ⟨user, id, .emergency⟩ ∉ s.notices ∧ ⟨user, id, .emergency⟩ ∈ s'.notices

/-- Every fault but one is as it was. -/
def OthersKept (id : Nat) (s s' : Board) : Prop := ∀ other, other ≠ id -> s'.faults.get? other = s.faults.get? other

/-- The report is a new fault. -/
def Opened (elevator : Nat) (report : PublicReport) (s s' : Board) : Prop :=
  ∃ id now, s.faults.get? id = none ∧ s'.faults.get? id = some (report.row .publicQr elevator now) ∧
    OthersKept id s s'

/-- The report is the last of a fault that was open or assigned. -/
def Appended (elevator : Nat) (report : PublicReport) (s s' : Board) : Prop :=
  ∃ id now fault fault', s.faults.get? id = some fault ∧ s'.faults.get? id = some fault' ∧
    fault.elevator = elevator ∧ fault.channel = .publicQr ∧ fault.isWaiting = true ∧
    fault'.additionalReports = fault.additionalReports ++
      [⟨now, report.description, report.someoneTrapped, report.elevatorStopped⟩] ∧
    OthersKept id s s'

/-- What the commit of a report does. -/
structure ReportKept (elevator : Nat) (report : PublicReport) (s s' : Board) (seen : List Note) : Prop where
  taken : Opened elevator report s s' ∨ Appended elevator report s s'
  raised : ∀ id fault fault', s.faults.get? id = some fault -> s'.faults.get? id = some fault' ->
    fault'.priority.rank ≤ fault.priority.rank
  /-- A fault that has become an emergency is announced to those it should be. -/
  announced : ∀ id fault', s'.faults.get? id = some fault' -> fault'.priority = .emergency ->
    (∀ fault, s.faults.get? id = some fault -> fault.priority ≠ .emergency) ->
    ∃ people, .people id people ∈ seen ∧ Announced id people s s'

/-- Nobody the fault is announced to holds an emergency of it. -/
def Note.isNews (v : Board) : Note -> Bool
  | .people id users => users.all (fun user => decide (⟨user, id, .emergency⟩ ∉ v.notices))
  | _ => true

theorem othersKept_insert {row : Fault} (faults : s'.faults = s.faults.insert id row) : OthersKept id s s' := by
  intro other different
  rw [faults, Rows.get?_insert_of_ne different.symm]

theorem othersKept_update {g : Fault -> Fault} (faults : s'.faults = s.faults.update id g) : OthersKept id s s' := by
  intro other different
  rw [faults, Rows.get?_update_of_ne different]

theorem Moves.there {g : Fault -> Fault} {fault : Fault} (moves : Moves id g fault s s') :
    s'.faults.get? id = some (g fault) := by
  rw [moves.faults, Rows.get?_update_self, moves.found, Option.map_some]

theorem Opens.there {row : Fault} {people : List Nat} (opens : Opens id row people s s') :
    s'.faults.get? id = some row := by
  rw [opens.faults, Rows.get?_insert_self opens.unused.1]

theorem rank_mergeInto (report : PublicReport) (moment : Nat) (fault : Fault) :
    (report.mergeInto moment fault).priority.rank ≤ fault.priority.rank := by
  unfold PublicReport.mergeInto
  dsimp only
  split_ifs with lower
  · exact lower.le
  · exact le_rfl

/-- Only a report that raises it makes an emergency of a fault. -/
theorem raises_iff (report : PublicReport) (moment : Nat) {fault : Fault} :
    report.raises fault ↔ fault.priority ≠ .emergency ∧ (report.mergeInto moment fault).priority = .emergency := by
  unfold PublicReport.raises PublicReport.mergeInto
  dsimp only
  split_ifs with lower
  · constructor
    · rintro ⟨_, emergency⟩
      refine ⟨?_, emergency⟩
      intro already
      rw [emergency, already] at lower
      exact lower.false
    · exact fun both => ⟨lower, both.2⟩
  · exact iff_of_false (fun raises => lower raises.1) (fun both => both.1 both.2)

theorem news_iff {people : List Nat} : Note.isNews s (.people id people) = true ↔
    ∀ user ∈ people, ⟨user, id, .emergency⟩ ∉ s.notices := by
  simp [Note.isNews]

theorem reportKept_opens {now : Nat} {people : List Nat}
    (opens : Opens id (report.row .publicQr elevator now) people s s') :
    ReportKept elevator report s s' (.people id people :: seen) where
  taken := Or.inl ⟨id, now, opens.unused.1, opens.there, othersKept_insert opens.faults⟩
  raised other fault fault' found there := by
    rw [opens.faults, Rows.get?_insert_of_some found] at there
    cases there
    exact le_rfl
  announced other fault' there emergency new := by
    by_cases here : other = id
    · refine ⟨people, here ▸ List.mem_cons_self, ?_⟩
      rw [here, opens.there] at there
      cases there
      rw [here]
      intro user mem
      have told := opens.told user mem
      unfold Fault.noticeKey at told
      rw [if_pos emergency] at told
      exact ⟨fun before => opens.unused.2 _ before rfl, told⟩
    · rw [othersKept_insert opens.faults other here] at there
      exact (new fault' there emergency).elim

theorem news_opens {row : Fault} {people : List Nat} (opens : Opens id row people s s') :
    Note.isNews s (.people id people) = true :=
  news_iff.mpr fun _ _ before => opens.unused.2 _ before rfl

theorem appended_of_moves {now : Nat} {fault : Fault} (moves : Moves id (report.mergeInto now) fault s s')
    (merges : mergesInto elevator now fault = true) : Appended elevator report s s' := by
  unfold mergesInto at merges
  rw [Bool.and_eq_true, decide_eq_true_iff] at merges
  exact ⟨id, now, fault, report.mergeInto now fault, moves.found, moves.there, merges.1.1, merges.1.2.1, merges.2,
    rfl, othersKept_update moves.faults⟩

theorem raised_of_moves {now : Nat} {fault : Fault} (moves : Moves id (report.mergeInto now) fault s s') :
    ∀ other fault fault', s.faults.get? other = some fault -> s'.faults.get? other = some fault' ->
      fault'.priority.rank ≤ fault.priority.rank := by
  intro other before after found there
  by_cases here : other = id
  · rw [here, moves.found] at found
    rw [here, moves.there] at there
    cases found
    cases there
    exact rank_mergeInto report now fault
  · rw [othersKept_update moves.faults other here, found] at there
    cases there
    exact le_rfl

/-- The fault that has become an emergency is the one the report raises. -/
theorem emergency_of_moves {now other : Nat} {fault fault' : Fault} (moves : Moves id (report.mergeInto now) fault s s')
    (there : s'.faults.get? other = some fault') (emergency : fault'.priority = .emergency)
    (new : ∀ fault, s.faults.get? other = some fault -> fault.priority ≠ .emergency) :
    other = id ∧ report.raises fault := by
  by_cases here : other = id
  · rw [here, moves.there] at there
    rw [here] at new
    cases there
    exact ⟨here, (raises_iff report now).mpr ⟨new fault moves.found, emergency⟩⟩
  · rw [othersKept_update moves.faults other here] at there
    exact (new fault' there emergency).elim

/-- **A report keeps its law** exactly when nobody it is announced to has heard of the
emergency before. -/
theorem reportKept_iff (change : Change (.reportPublic elevator report) s s' seen) :
    ReportKept elevator report s s' seen ↔ seen.all (Note.isNews s) = true := by
  cases change with
  | opens opens others =>
      refine iff_of_true (reportKept_opens opens) ?_
      rw [List.all_cons, news_opens opens]
      rfl
  | @merges _ _ now ids id fault _ _ moves merges kept =>
      refine iff_of_true ⟨Or.inr (appended_of_moves moves merges), raised_of_moves moves, ?_⟩ rfl
      intro other fault' there emergency new
      exact absurd (emergency_of_moves moves there emergency new).2 kept
  | @escalates _ _ now ids id fault people _ _ moves merges raises told =>
      have emergency := (raises_iff report now).mp raises
      have news : ([Note.people id people, .candidates elevator now ids, .now now].all (Note.isNews s) = true) ↔
          ∀ user ∈ people, ⟨user, id, .emergency⟩ ∉ s.notices := by
        simp [Note.isNews]
      rw [news]
      constructor
      · intro kept user mem
        have new : ∀ before, s.faults.get? id = some before -> before.priority ≠ .emergency := by
          intro before found
          rw [moves.found] at found
          cases found
          exact emergency.1
        rcases kept.announced id _ moves.there emergency.2 new with ⟨people', noted, announced⟩
        have same : people' = people := by
          simpa using noted
        rw [same] at announced
        exact (announced user mem).1
      · intro fresh
        refine ⟨Or.inr (appended_of_moves moves merges), raised_of_moves moves, ?_⟩
        intro other fault' there became new
        rw [(emergency_of_moves moves there became new).1]
        exact ⟨people, List.mem_cons_self, fun user mem => ⟨fresh user mem, told user mem⟩⟩

/-! ## Public faults are apart -/

/-- Two public faults of a lift that may be merged into were reported more than the
window apart. -/
def Board.Apart (v : Board) : Prop := ∀ id id' a b, v.faults.get? id = some a -> v.faults.get? id' = some b ->
  id ≠ id' -> a.elevator = b.elevator -> a.channel = .publicQr -> b.channel = .publicQr ->
  a.isWaiting = true -> b.isWaiting = true ->
  a.reportedAt + publicMergeWindow < b.reportedAt ∨ b.reportedAt + publicMergeWindow < a.reportedAt

/-- A new public fault is the only one, and far from those there are. -/
theorem Change.far {q : Request} (change : Change q s s' seen) (means : ∀ note ∈ seen, s.Means note) {new : Fault}
    (absent : s.faults.get? id = none) (there : s'.faults.get? id = some new) (public_ : new.channel = .publicQr) :
    OthersKept id s s' ∧ ∀ other fault, s.faults.get? other = some fault -> fault.elevator = new.elevator ->
      fault.channel = .publicQr -> fault.isWaiting = true -> fault.reportedAt + publicMergeWindow < new.reportedAt := by
  have inserted {key : Nat} {row : Fault} {people : List Nat} (opens : Opens key row people s s') : key = id ∧ row = new := by
    rw [opens.faults, Rows.get?_insert, absent, Option.none_or] at there
    split_ifs at there with here
    cases there
    exact ⟨here, rfl⟩
  have kept (faults : s'.faults = s.faults) : False := by
    rw [faults, absent] at there
    cases there
  have updated {key : Nat} {g : Fault -> Fault} {row : Fault} (moves : Moves key g row s s') : False := by
    rw [moves.faults, Rows.update_absent absent] at there
    cases there
  cases change with
  | ticks => exact (kept rfl).elim
  | peopled => exact (kept rfl).elim
  | covered => exact (kept rfl).elim
  | staff opens =>
      rcases inserted opens with ⟨_, rfl⟩
      cases public_
  | portal opens =>
      rcases inserted opens with ⟨_, rfl⟩
      cases public_
  | @opens elevator report now ids key people _ _ opens others =>
      rcases inserted opens with ⟨rfl, rfl⟩
      refine ⟨othersKept_insert opens.faults, ?_⟩
      intro other fault found lift channel waiting
      by_contra close
      have merges : mergesInto elevator now fault = true := by
        unfold mergesInto
        rw [Bool.and_eq_true, decide_eq_true_iff]
        exact ⟨⟨lift, channel, not_lt.mp close⟩, waiting⟩
      have listed : other ∈ ids :=
        means (.candidates elevator now ids) (List.mem_cons_of_mem _ List.mem_cons_self) other fault found merges
      rw [others other listed fault found] at merges
      cases merges
  | merges moves => exact (updated moves).elim
  | escalates moves => exact (updated moves).elim
  | assigns moves => exact (updated moves).elim
  | assigned => exact (kept rfl).elim
  | arrives moves => exact (updated moves).elim
  | resolves moves => exact (updated moves).elim
  | closes moves => exact (updated moves).elim
  | cancels moves => exact (updated moves).elim
  | edits moves => exact (updated moves).elim

theorem Apart.step {q : Request} (apart : s.Apart) (change : Change q s s' seen)
    (means : ∀ note ∈ seen, s.Means note) (later : s.Later s') : s'.Apart := by
  intro id id' a b found found' different lift channel channel' waiting waiting'
  cases before : s.faults.get? id with
  | none =>
      rcases change.far means before found channel with ⟨others, far⟩
      rw [others id' different.symm] at found'
      exact Or.inr (far id' b found' lift.symm channel' waiting')
  | some old =>
      cases before' : s.faults.get? id' with
      | none =>
          rcases change.far means before' found' channel' with ⟨others, far⟩
          rw [others id different] at found
          exact Or.inl (far id a found lift channel waiting)
      | some old' =>
          rcases later.faults id old before with ⟨_, there, onward⟩
          rcases later.faults id' old' before' with ⟨_, there', onward'⟩
          rw [found] at there
          rw [found'] at there'
          cases there
          cases there'
          rw [onward.reportedAt, onward'.reportedAt]
          apply apart id id' old old' before before' different
          · rw [← onward.elevator, lift, onward'.elevator]
          · rw [← onward.channel, channel]
          · rw [← onward'.channel, channel']
          · exact onward.waiting waiting
          · exact onward'.waiting waiting'

/-! ## Public reports are counted -/

/-- The reports a fault stands for, if it is a public one of the lift. -/
def Fault.reports (elevator : Nat) (fault : Fault) : Nat :=
  if fault.elevator = elevator ∧ fault.channel = .publicQr then 1 + fault.additionalReports.length else 0

def Board.reports (v : Board) (elevator : Nat) : Nat := v.faults.total (fun _ fault => fault.reports elevator)

def Request.isReportOf (elevator : Nat) : Request -> Bool
  | .reportPublic lift _ => decide (lift = elevator)
  | _ => false

/-- A fault is there once, and a request adds what it reports of the lift. -/
structure Counted (elevator : Nat) (q : Request) (s s' : Board) : Prop where
  distinct : s'.faults.Distinct
  reports : s'.reports elevator = s.reports elevator + if q.isReportOf elevator then 1 else 0

theorem Opens.counted {q : Request} {row : Fault} {people : List Nat} (opens : Opens id row people s s')
    (distinct : s.faults.Distinct) (one : row.reports elevator = if q.isReportOf elevator then 1 else 0) :
    Counted elevator q s s' := by
  refine ⟨?_, ?_⟩
  · rw [opens.faults]
    exact distinct.insert opens.unused.1
  · unfold Board.reports
    rw [opens.faults, Rows.total_insert, one]

theorem Moves.counted {q : Request} {g : Fault -> Fault} {fault : Fault} (moves : Moves id g fault s s')
    (distinct : s.faults.Distinct)
    (more : (g fault).reports elevator = fault.reports elevator + if q.isReportOf elevator then 1 else 0) :
    Counted elevator q s s' := by
  refine ⟨?_, ?_⟩
  · rw [moves.faults]
    exact distinct.update id g
  · have sums := Rows.total_update distinct moves.found g (fun _ fault => fault.reports elevator)
    unfold Board.reports
    rw [moves.faults]
    omega

theorem counted_around {q : Request} (distinct : s.faults.Distinct) (faults : s'.faults = s.faults)
    (none_ : q.isReportOf elevator = false) : Counted elevator q s s' := by
  refine ⟨faults ▸ distinct, ?_⟩
  unfold Board.reports
  rw [faults, none_]
  rfl

theorem reports_mergeInto {now : Nat} {fault : Fault} {lift : Nat} (merges : mergesInto lift now fault = true) :
    (report.mergeInto now fault).reports elevator =
      fault.reports elevator + if (Request.reportPublic lift report).isReportOf elevator then 1 else 0 := by
  unfold mergesInto at merges
  rw [Bool.and_eq_true, decide_eq_true_iff] at merges
  rcases merges.1 with ⟨rfl, channel, _⟩
  unfold Fault.reports Request.isReportOf PublicReport.mergeInto
  by_cases here : fault.elevator = elevator
  · simp [here, channel]
    omega
  · simp [here]

theorem Change.counted {q : Request} (change : Change q s s' seen) (distinct : s.faults.Distinct) (elevator : Nat) :
    Counted elevator q s s' := by
  cases change with
  | ticks => exact counted_around distinct rfl rfl
  | peopled => exact counted_around distinct rfl rfl
  | covered => exact counted_around distinct rfl rfl
  | staff opens => exact opens.counted distinct (if_neg (fun both => by cases both.2))
  | portal opens => exact opens.counted distinct (if_neg (fun both => by cases both.2))
  | @opens lift report now ids key people _ _ opens others =>
      apply opens.counted distinct
      unfold Fault.reports Request.isReportOf PublicReport.row
      by_cases here : lift = elevator
      · simp [here]
      · simp [here]
  | merges moves merges => exact moves.counted distinct (reports_mergeInto merges)
  | escalates moves merges => exact moves.counted distinct (reports_mergeInto merges)
  | assigns moves => exact moves.counted distinct rfl
  | assigned => exact counted_around distinct rfl rfl
  | arrives moves => exact moves.counted distinct rfl
  | resolves moves => exact moves.counted distinct rfl
  | closes moves => exact moves.counted distinct rfl
  | cancels moves => exact moves.counted distinct rfl
  | edits moves => exact moves.counted distinct rfl

/-! ## Runs -/

/-- The step does not commit a report of an emergency to people who know of it. -/
def tellsAnew (m : Desk) (event : Event Request) : Bool :=
  (m.committing event).all (fun session =>
    match session.request with
    | .reportPublic _ _ => session.trail.seen.all (Note.isNews m.committed)
    | _ => true)

/-- If the step commits a public report, it keeps the law of reports. -/
def ReportLaw (m : Desk) (event : Event Request) : Prop := ∀ session elevator report,
  m.committing event = some session -> session.request = .reportPublic elevator report ->
    ReportKept elevator report m.committed (m.step serve event).committed session.trail.seen

structure ReportsKept (clock : Nat) (events : List (Event Request)) : Prop where
  each : ∀ before event, before ++ [event] <+: events -> ReportLaw (deskAfter clock before) event
  apart : ∀ before, before <+: events -> (boardAfter clock before).Apart
  /-- None is lost, and none is there twice. -/
  counted : ∀ before, before <+: events -> ∀ elevator, (boardAfter clock before).reports elevator =
    ((Machine.init (Board.empty clock) 0 : Desk).succeeded serve before).countP (Request.isReportOf elevator)

theorem reportLaw_iff {m : Desk} (orderly : Machine.Orderly guard Change m) (event : Event Request) :
    ReportLaw m event ↔ tellsAnew m event = true := by
  unfold ReportLaw tellsAnew
  cases commits : m.committing event with
  | none => simp
  | some session =>
      have change : Change session.request _ (m.step serve event).committed session.trail.seen :=
        (orderly.commits commits).1
      simp only [Option.some.injEq, Option.all_some]
      split
      · rename_i elevator report request
        rw [request] at change
        rw [← reportKept_iff change]
        constructor
        · exact fun law => law session elevator report rfl request
        · rintro kept _ elevator' report' rfl request'
          rw [request] at request'
          cases request'
          exact kept
      · rename_i other
        refine iff_of_true ?_ rfl
        rintro _ elevator report rfl request
        exact absurd request (other elevator report)

theorem apart_after (clock : Nat) (events : List (Event Request)) : (boardAfter clock events).Apart := by
  have both : Machine.Orderly guard Change (deskAfter clock events) ∧ (deskAfter clock events).committed.Apart := by
    apply Transitions.run_invariant (J := fun m : Desk => Machine.Orderly guard Change m ∧ m.committed.Apart)
    · rintro m event ⟨orderly, apart⟩
      refine ⟨orderly.step governed event, ?_⟩
      rcases orderly.step_cases serve event with ⟨_, same⟩ | ⟨session, _, change, later, means⟩
      · rw [same]
        exact apart
      · exact Apart.step apart change means later
    · refine ⟨orderly_empty clock, ?_⟩
      intro id id' a b found
      cases found
  exact both.2

theorem counted_run {m : Desk} (orderly : Machine.Orderly guard Change m) (distinct : m.committed.faults.Distinct)
    (events : List (Event Request)) (elevator : Nat) :
    (Transitions.run (Machine.step serve) m events).committed.reports elevator =
      m.committed.reports elevator + (m.succeeded serve events).countP (Request.isReportOf elevator) := by
  induction events generalizing m with
  | nil => rfl
  | cons event events ih =>
      rw [Transitions.run, Machine.succeeded, List.countP_append]
      rcases orderly.step_cases serve event with ⟨quiet, same⟩ | ⟨session, commits, change, _⟩
      · rw [ih (orderly.step governed event) (same ▸ distinct), same, quiet]
        simp
      · have counted := change.counted distinct elevator
        rw [ih (orderly.step governed event) counted.distinct, counted.reports, commits]
        simp [List.countP_cons]
        omega

theorem everyStep_tellsAnew (clock : Nat) (events : List (Event Request)) :
    ReportsKept clock events ->
      Transitions.everyStep (Machine.step serve) tellsAnew (Machine.init (Board.empty clock) 0) events = true := by
  intro kept
  rw [Transitions.everyStep_iff]
  intro before event earlier
  exact (reportLaw_iff (orderly_deskAfter clock before) event).mp (kept.each before event earlier)

/-- **Public reports** are neither lost nor doubled, and public faults stay apart.  Every
emergency a report makes is announced if and only if none is announced to somebody who
holds one of the same fault. -/
theorem public_reports_kept (clock : Nat) (events : List (Event Request)) : ReportsKept clock events ↔
    Transitions.everyStep (Machine.step serve) tellsAnew (Machine.init (Board.empty clock) 0) events = true := by
  refine ⟨everyStep_tellsAnew clock events, ?_⟩
  intro passes
  refine ⟨?_, fun before _ => apart_after clock before, ?_⟩
  · intro before event earlier
    exact (reportLaw_iff (orderly_deskAfter clock before) event).mpr (Transitions.everyStep_iff.mp passes before event earlier)
  · intro before _ elevator
    have counted := counted_run (orderly_empty clock) List.nodup_nil before elevator
    rw [show (boardAfter clock before).reports elevator = _ from counted]
    exact Nat.zero_add _

/-- Somebody is trapped, twice within half an hour, and in between the office has put the
priority down. -/
def secondTrapped : List (Event Request) :=
  let trapped : PublicReport := ⟨⟨true, false⟩, "", "", ""⟩
  [.arrive (.people [(1, ⟨.owner, true, false⟩)] [] [])] ++ List.replicate 2 (.advance 0) ++
  [.arrive (.reportPublic 7 trapped)] ++ List.replicate 8 (.advance 1) ++
  [.arrive (.edit 0 ⟨some .normal, none, none⟩)] ++ List.replicate 4 (.advance 2) ++
  [.arrive (.reportPublic 7 trapped)] ++ List.replicate 9 (.advance 3)

/-- The second emergency is announced to nobody. -/
theorem second_emergency_unannounced : ¬ ReportsKept 0 secondTrapped := by
  intro kept
  have passes := everyStep_tellsAnew 0 secondTrapped kept
  revert passes
  decide +kernel

end Faults
end Shiftlush
