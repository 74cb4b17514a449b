import Shiftlush.Faults.Services
import Shiftlush.Inspections.Current
import Shiftlush.Notifications

namespace Shiftlush
namespace Inspections

open Calendar (Date)
open Faults (Staff isOffice)
open Notifications (createAll createAll_spec nodup_createAll told_createAll)
open Transitions (run)

/-!
# Warnings of a correction's deadline

The daily job of `apps.inspections.tasks`.  A warning is for an inspection and a
threshold, and `uq_notification_dedupe_per_recipient` keeps a person from getting
it twice.  An edit that moves the deadline does not change the key.
-/

/-! ## Thresholds -/

def correctionThresholds : List Nat := [30, 14, 3]

/-- `threshold_for` -/
def thresholdFor (daysLeft : Int) : Option Nat :=
  (correctionThresholds.filter (fun t : Nat => decide (daysLeft ≤ (t : Int)))).min?

/-- The kind of a warning, and the threshold in its key. -/
inductive Threshold where
  /-- `correction_deadline_near` -/
  | near (days : Nat)
  /-- `correction_deadline_passed` -/
  | passed
  deriving DecidableEq, Repr

namespace Threshold

/-- A tighter threshold is lower. -/
def rank : Threshold -> Nat
  | .near days => days + 1
  | .passed => 0

/-- The threshold a deadline has crossed so many days before it. -/
def crossed (daysLeft : Int) : Option Threshold :=
  if daysLeft < 0 then some .passed else (thresholdFor daysLeft).map .near

/-- The tightest that has been crossed: no other lies between it and the deadline. -/
structure IsTightest (threshold : Threshold) (daysLeft : Int) : Prop where
  passed : threshold = .passed ↔ daysLeft < 0
  near : ∀ days, threshold = .near days -> days ∈ correctionThresholds ∧ daysLeft ≤ days ∧
    ∀ other ∈ correctionThresholds, daysLeft ≤ (other : Int) -> days ≤ other

end Threshold

theorem thresholdFor_spec {daysLeft : Int} {days : Nat} (found : thresholdFor daysLeft = some days) :
    days ∈ correctionThresholds ∧ daysLeft ≤ days ∧
      ∀ other ∈ correctionThresholds, daysLeft ≤ (other : Int) -> days ≤ other := by
  unfold thresholdFor at found
  rcases List.min?_eq_some_iff.mp found with ⟨listed, least⟩
  rcases List.mem_filter.mp listed with ⟨mem, crossed⟩
  refine ⟨mem, of_decide_eq_true crossed, ?_⟩
  intro other mem' crossed'
  exact least other (List.mem_filter.mpr ⟨mem', decide_eq_true crossed'⟩)

theorem isTightest_crossed {daysLeft : Int} {threshold : Threshold}
    (crossed : Threshold.crossed daysLeft = some threshold) : threshold.IsTightest daysLeft := by
  unfold Threshold.crossed at crossed
  split at crossed
  · rename_i late
    cases crossed
    exact ⟨iff_of_true rfl late, fun days impossible => by cases impossible⟩
  · rename_i early
    rcases Option.map_eq_some_iff.mp crossed with ⟨days, found, rfl⟩
    refine ⟨iff_of_false (fun impossible => by cases impossible) early, ?_⟩
    intro other same
    cases same
    exact thresholdFor_spec found

theorem thresholdFor_eq_some {daysLeft : Int} {days : Nat} (listed : days ∈ correctionThresholds)
    (crossed : daysLeft ≤ days) (least : ∀ other ∈ correctionThresholds, daysLeft ≤ (other : Int) -> days ≤ other) :
    thresholdFor daysLeft = some days := by
  unfold thresholdFor
  refine List.min?_eq_some_iff.mpr ⟨List.mem_filter.mpr ⟨listed, decide_eq_true crossed⟩, ?_⟩
  intro other mem
  rcases List.mem_filter.mp mem with ⟨listed', crossed'⟩
  exact least other listed' (of_decide_eq_true crossed')

theorem crossed_of_isTightest {daysLeft : Int} {threshold : Threshold} (tight : threshold.IsTightest daysLeft) :
    Threshold.crossed daysLeft = some threshold := by
  unfold Threshold.crossed
  cases threshold with
  | passed => rw [if_pos (tight.passed.mp rfl)]
  | near days =>
      have early : ¬ daysLeft < 0 := fun late => by cases tight.passed.mpr late
      rcases tight.near days rfl with ⟨listed, crossed, least⟩
      rw [if_neg early, thresholdFor_eq_some listed crossed least, Option.map_some]

/-- Fewer days, no looser a threshold. -/
theorem Threshold.IsTightest.rank_le {a b : Threshold} {left left' : Int} (tight : a.IsTightest left)
    (tight' : b.IsTightest left') (fewer : left' ≤ left) : b.rank ≤ a.rank := by
  cases b with
  | passed => exact Nat.zero_le _
  | near days' =>
      have early : ¬ left' < 0 := fun late => by cases tight'.passed.mpr late
      cases a with
      | passed =>
          have late := tight.passed.mp rfl
          omega
      | near days =>
          rcases tight.near days rfl with ⟨listed, crossed, _⟩
          exact Nat.succ_le_succ ((tight'.near days' rfl).2.2 days listed (fewer.trans crossed))

/-! ## The job -/

structure Warning where
  recipient : Nat
  inspection : Nat
  threshold : Threshold
  /-- `correction_deadline` and `days_left`, in the data. -/
  deadline : Date
  daysLeft : Int
  deriving DecidableEq

/-- The recipient and the `dedupe_key`. -/
def Warning.key (warning : Warning) : Nat × Nat × Threshold :=
  (warning.recipient, warning.inspection, warning.threshold)

structure Watch where
  register : Register
  defects : Rows NonConformity
  today : Date
  users : Rows Staff
  /-- The customer of a lift. -/
  customers : Rows Nat
  /-- The customer assignments that are not deleted: customer and user. -/
  assignments : List (Nat × Nat)
  warnings : List Warning

namespace Watch

variable (w : Watch)

/-- `office_and_technicians`, of those that `notify` does not skip. -/
def recipients (elevator : Nat) : List Nat :=
  (w.users.filter (fun r => r.2.isActive && !r.2.isDeleted && (isOffice r.2.role ||
    decide (r.2.role = .technician) && w.assignments.any (fun a =>
      decide (w.customers.get? elevator = some a.1 ∧ a.2 = r.1))))).map Prod.fst

def daysLeft (deadline : Date) : Int := deadline.ordinal - w.today.ordinal

/-- What the job raises for one inspection. -/
def warningsFor (r : Nat × Fleet.Inspection) : List Warning :=
  match w.register.deadlineOf r.1 with
  | none => []
  | some deadline =>
      if w.register.openNonconformities w.defects r.1 = 0 then []
      else
        match Threshold.crossed (w.daysLeft deadline) with
        | none => []
        | some threshold => (w.recipients r.2.elevator).map (fun user =>
            ⟨user, r.1, threshold, deadline, w.daysLeft deadline⟩)

/-- Everything it raises on a day. -/
def due : List Warning := w.register.corrections.flatMap w.warningsFor

/-- `correction_deadline_notice` -/
def notice : Watch := { w with warnings := createAll Warning.key w.warnings w.due }

end Watch

/-! ## Requests and days -/

inductive WatchEvent where
  | inspections (event : Event)
  | addNonconformity (id inspection : Nat)
  | editNonconformity (id : Nat) (status : NonConformityStatus)
  /-- People change, elsewhere. -/
  | people (users : Rows Staff) (customers : Rows Nat) (assignments : List (Nat × Nat))
  /-- Days pass, without a run. -/
  | pass (days : Nat)
  | notice

namespace Watch

def step (w : Watch) : WatchEvent -> Watch
  | .inspections event => { w with register := w.register.step event }
  | .addNonconformity id inspection => { w with defects := w.defects.insert id ⟨inspection, .open⟩ }
  | .editNonconformity id status =>
      { w with defects := w.defects.update id (fun defect => { defect with status := status }) }
  | .people users customers assignments =>
      { w with users := users, customers := customers, assignments := assignments }
  | .pass days => { w with today := w.today.addDays days }
  | .notice => w.notice

/-- A firm without inspections. -/
def empty (today : Date) : Watch := ⟨.empty, [], today, [], [], [], []⟩

/-! ## The law -/

/-- What holds of the warnings of a firm at any time. -/
structure Lawful (w : Watch) : Prop where
  /-- A threshold of an inspection is announced to a person once. -/
  once : (w.warnings.map Warning.key).Nodup
  tight : ∀ n ∈ w.warnings, n.threshold.IsTightest n.daysLeft
  past : ∀ n ∈ w.warnings, n.deadline.ordinal - n.daysLeft ≤ w.today.ordinal
  /-- Towards one deadline no threshold is announced after a tighter one. -/
  inOrder : w.warnings.Pairwise (fun a b =>
    a.inspection = b.inspection -> a.deadline = b.deadline -> b.threshold.rank ≤ a.threshold.rank)

/-- A person is to hear on this day of the deadline of a current inspection. -/
structure Owed (w : Watch) (r : Nat × Fleet.Inspection) (deadline : Date) (threshold : Threshold) (user : Nat) :
    Prop where
  current : r ∈ w.register.currentInspections
  labelled : r.2.label = .yellow ∨ r.2.label = .red
  inForce : w.register.deadlineOf r.1 = some deadline
  outstanding : w.register.openNonconformities w.defects r.1 ≠ 0
  tight : threshold.IsTightest (w.daysLeft deadline)
  reached : user ∈ w.recipients r.2.elevator

/-- What a run of the job does. -/
structure Announces (w w' : Watch) : Prop where
  /-- Whoever is to be warned holds the warning afterwards, once. -/
  told : ∀ r deadline threshold user, w.Owed r deadline threshold user ->
    w'.warnings.countP (fun n => decide (n.key = (user, r.1, threshold))) = 1
  kept : w.warnings <+: w'.warnings
  /-- Nothing is raised but the warnings of the day, to people who had none. -/
  only : ∀ n ∈ w'.warnings, n ∉ w.warnings -> n.key ∉ w.warnings.map Warning.key ∧
    ∃ r, w.Owed r n.deadline n.threshold n.recipient ∧ n.inspection = r.1 ∧ n.daysLeft = w.daysLeft n.deadline

variable {w : Watch} {n : Warning} {r : Nat × Fleet.Inspection} {deadline : Date} {threshold : Threshold} {user : Nat}

theorem isCorrection_iff {s : Register} : s.isCorrection r = true ↔
    (r.2.label = .yellow ∨ r.2.label = .red) ∧ ∃ deadline, s.deadlineOf r.1 = some deadline := by
  unfold Register.isCorrection
  rw [Bool.and_eq_true, decide_eq_true_iff, Option.isSome_iff_exists]

theorem Owed.mem_due (owed : w.Owed r deadline threshold user) :
    ⟨user, r.1, threshold, deadline, w.daysLeft deadline⟩ ∈ w.due := by
  have listed : r ∈ w.register.corrections := by
    unfold Register.corrections
    rw [List.mem_insertionSort, List.mem_filter, isCorrection_iff]
    exact ⟨owed.current, owed.labelled, deadline, owed.inForce⟩
  apply List.mem_flatMap.mpr ⟨r, listed, ?_⟩
  unfold warningsFor
  rw [owed.inForce]
  dsimp only
  rw [if_neg owed.outstanding, crossed_of_isTightest owed.tight]
  exact List.mem_map.mpr ⟨user, owed.reached, rfl⟩

theorem owed_of_due (asked : n ∈ w.due) : ∃ r, w.Owed r n.deadline n.threshold n.recipient ∧ n.inspection = r.1 ∧
    n.daysLeft = w.daysLeft n.deadline := by
  rcases List.mem_flatMap.mp asked with ⟨r, listed, mem⟩
  unfold Register.corrections at listed
  rw [List.mem_insertionSort, List.mem_filter, isCorrection_iff] at listed
  unfold warningsFor at mem
  split at mem
  · cases mem
  · rename_i deadline found
    split_ifs at mem with closed
    · cases mem
    · split at mem
      · cases mem
      · rename_i threshold crossed
        rcases List.mem_map.mp mem with ⟨user, recipient, rfl⟩
        exact ⟨r, ⟨listed.1, listed.2.1, found, closed, isTightest_crossed crossed, recipient⟩, rfl, rfl⟩

theorem tight_due (asked : n ∈ w.due) : n.threshold.IsTightest n.daysLeft ∧
    n.deadline.ordinal - n.daysLeft = w.today.ordinal := by
  rcases owed_of_due asked with ⟨r, owed, _, left⟩
  rw [left]
  refine ⟨owed.tight, ?_⟩
  unfold daysLeft
  omega

theorem announces_notice (lawful : w.Lawful) : w.Announces w.notice := by
  rcases @createAll_spec _ _ _ Warning.key w.warnings w.due with ⟨added, result, sub, fresh⟩
  have warnings : w.notice.warnings = w.warnings ++ added := result
  refine ⟨?_, ?_, ?_⟩
  · intro r deadline threshold user owed
    have once : (w.notice.warnings.map Warning.key).Nodup := nodup_createAll lawful.once w.due
    have told : (user, r.1, threshold) ∈ w.notice.warnings.map Warning.key :=
      @told_createAll _ _ _ Warning.key w.due _ w.warnings owed.mem_due
    have count := List.count_eq_one_of_mem once told
    rw [List.count_eq_countP, List.countP_map] at count
    have same : ∀ n ∈ w.notice.warnings, decide (n.key = (user, r.1, threshold)) = true ↔
        ((fun x => x == (user, r.1, threshold)) ∘ Warning.key) n = true := by
      intro n _
      rw [decide_eq_true_iff, Function.comp_apply, beq_iff_eq]
    rw [List.countP_congr same]
    exact count
  · rw [warnings]
    exact List.prefix_append _ _
  · intro n mem new
    rw [warnings] at mem
    rcases List.mem_append.mp mem with old | here
    · exact absurd old new
    · exact ⟨fresh n here, owed_of_due (sub.subset here)⟩

theorem lawful_notice (lawful : w.Lawful) : w.notice.Lawful := by
  rcases @createAll_spec _ _ _ Warning.key w.warnings w.due with ⟨added, result, sub, _⟩
  have warnings : w.notice.warnings = w.warnings ++ added := result
  have today : w.notice.today = w.today := rfl
  have new : ∀ n ∈ added, n.threshold.IsTightest n.daysLeft ∧ n.deadline.ordinal - n.daysLeft = w.today.ordinal :=
    fun n mem => tight_due (sub.subset mem)
  refine ⟨nodup_createAll lawful.once w.due, ?_, ?_, ?_⟩
  · rw [warnings]
    intro n mem
    rcases List.mem_append.mp mem with old | here
    · exact lawful.tight n old
    · exact (new n here).1
  · rw [warnings, today]
    intro n mem
    rcases List.mem_append.mp mem with old | here
    · exact lawful.past n old
    · exact (new n here).2.le
  · rw [warnings]
    -- Two of them are as tight as their days, and the later has no more days left.
    refine List.pairwise_append.mpr ⟨lawful.inOrder, ?_, ?_⟩
    · apply List.pairwise_of_forall_mem_list
      intro a mem b mem' _ deadline
      apply (new a mem).1.rank_le (new b mem').1
      have first := (new a mem).2
      have second := (new b mem').2
      rw [deadline] at first
      omega
    · intro a mem b mem' _ deadline
      apply (lawful.tight a mem).rank_le (new b mem').1
      have first := lawful.past a mem
      have second := (new b mem').2
      rw [deadline] at first
      omega

theorem Lawful.step (lawful : w.Lawful) (event : WatchEvent) : (w.step event).Lawful := by
  cases event with
  | inspections event => exact ⟨lawful.once, lawful.tight, lawful.past, lawful.inOrder⟩
  | addNonconformity id inspection => exact ⟨lawful.once, lawful.tight, lawful.past, lawful.inOrder⟩
  | editNonconformity id status => exact ⟨lawful.once, lawful.tight, lawful.past, lawful.inOrder⟩
  | people users customers assignments => exact ⟨lawful.once, lawful.tight, lawful.past, lawful.inOrder⟩
  | pass days =>
      refine ⟨lawful.once, lawful.tight, ?_, lawful.inOrder⟩
      intro n mem
      apply (lawful.past n mem).trans
      rw [show (w.step (.pass days)).today = w.today.addDays days from rfl, Date.ordinal_addDays]
      omega
  | notice => exact lawful_notice lawful

theorem lawful_empty (today : Date) : (empty today).Lawful :=
  ⟨List.nodup_nil, fun _ mem => (by cases mem), fun _ mem => (by cases mem), List.Pairwise.nil⟩

/-- The job warns of every deadline of a run, whatever the requests and the days between. -/
structure Warns (today : Date) (events : List WatchEvent) : Prop where
  lawful : ∀ before, before <+: events -> (run step (empty today) before).Lawful
  announces : ∀ before, before ++ [.notice] <+: events ->
    (run step (empty today) before).Announces (run step (empty today) (before ++ [.notice]))

theorem lawful_run (today : Date) (events : List WatchEvent) : (run step (empty today) events).Lawful :=
  Transitions.run_invariant (fun _ event lawful => lawful.step event) events (lawful_empty today)

/-- **Deadline warnings.**  In every run each person to be warned of an inspection's
deadline is told of the tightest threshold it has crossed, once for the inspection
and the threshold, and of no threshold that a tighter one has overtaken. -/
theorem deadline_warnings (today : Date) (events : List WatchEvent) : Warns today events := by
  refine ⟨fun before _ => lawful_run today before, ?_⟩
  intro before _
  rw [Transitions.run_concat]
  exact announces_notice (lawful_run today before)

/-! ## A deadline that moves -/

/-- Whoever is to be warned of a deadline holds a warning of it. -/
def ToldOfDeadline (w w' : Watch) : Prop := ∀ r deadline threshold user, w.Owed r deadline threshold user ->
  ∃ n ∈ w'.warnings, n.key = (user, r.1, threshold) ∧ n.deadline = deadline

/-- A yellow label is warned of thirty days ahead.  Then its date is put right by five
days, and so is the deadline. -/
def movedDeadline : List WatchEvent :=
  let day : Date := .first 24300
  [.people [(9, ⟨.owner, true, false⟩)] [] [],
   .inspections (.other ⟨.createElevator (some .active), isExamination_createElevator⟩),
   .inspections (.record .periodic ⟨0, day, .yellow, none, none, "", ""⟩ 0),
   .addNonconformity 5 1, .pass 95, .notice,
   .inspections (.edit 1 ⟨some (day.addDays 5), none, none, none, none⟩ none)]

/-- The inspection, put right. -/
def moved : Nat × Fleet.Inspection :=
  let day : Date := .first 24300
  (1, ⟨0, day.addDays 5, 0, .yellow, day.addMonths 12, "", ""⟩)

/-- The deadline in force is announced to nobody. -/
theorem moved_deadline_unannounced : ¬ ∀ day events before, before ++ [.notice] <+: events ->
    ToldOfDeadline (run step (empty day) before) (run step (empty day) (before ++ [.notice])) := by
  intro told
  let day : Date := .first 24300
  have here := told day (movedDeadline ++ [.notice]) movedDeadline List.prefix_rfl
    moved (day.addDays 125) (.near 30) 9
    ⟨by decide +kernel, by decide +kernel, by decide +kernel, by decide +kernel,
      isTightest_crossed (by decide +kernel), by decide +kernel⟩
  revert here
  decide +kernel

end Watch

end Inspections
end Shiftlush
