import Shiftlush.Inspections.Deadlines
import Mathlib.Data.Prod.Lex
import Mathlib.Data.List.Sort

namespace Shiftlush
namespace Inspections

open Calendar (Date)
open Fleet (Label later laterOf)
open Transitions (run)

/-!
# The current inspection of a lift

Which inspection is the current one is worked out in several places.  The lift
takes its label from the latest by date, creation and key, and so do the open
correction and the list of inspections that are due.  The corrections that are
due, and their notices, come from every inspection without one of a later date,
of which those without an open defect are then left out.
-/

/-! ## The latest of a list -/

/-- `inspected_on, created_at, id` -/
def stamp (r : Nat × Fleet.Inspection) : Date ×ₗ Nat ×ₗ Nat := toLex (r.2.inspectedOn, toLex (r.2.createdAt, r.1))

theorem later_iff {a b : Nat × Fleet.Inspection} : later a b = true ↔ stamp b < stamp a := by
  unfold later stamp
  simp only [Bool.or_eq_true, Bool.and_eq_true, decide_eq_true_iff, Prod.Lex.toLex_lt_toLex]
  tauto

theorem eq_of_stamp {rows : Rows Fleet.Inspection} (distinct : rows.Distinct) {a b : Nat × Fleet.Inspection}
    (here : a ∈ rows) (there : b ∈ rows) (same : stamp a = stamp b) : a = b := by
  apply Rows.unique distinct here there
  have parts := congrArg (fun k => (ofLex (ofLex k).2).2) same
  exact parts

/-- No row is later. -/
structure IsLatest (rows : Rows Fleet.Inspection) (r : Nat × Fleet.Inspection) : Prop where
  listed : r ∈ rows
  last : ∀ other ∈ rows, stamp other ≤ stamp r

theorem IsLatest.unique {rows : Rows Fleet.Inspection} (distinct : rows.Distinct) {a b : Nat × Fleet.Inspection}
    (first : IsLatest rows a) (second : IsLatest rows b) : a = b :=
  eq_of_stamp distinct first.listed second.listed
    (le_antisymm (second.last a first.listed) (first.last b second.listed))

theorem laterOf_spec (best : Option (Nat × Fleet.Inspection)) (r : Nat × Fleet.Inspection) :
    ∃ next, laterOf best r = some next ∧ stamp r ≤ stamp next ∧ ∀ b, best = some b -> stamp b ≤ stamp next := by
  cases best with
  | none => exact ⟨r, rfl, le_rfl, fun _ same => by cases same⟩
  | some b =>
      unfold laterOf
      dsimp only
      split
      · rename_i passes
        refine ⟨r, rfl, le_rfl, ?_⟩
        intro b' same
        cases same
        exact (later_iff.mp passes).le
      · rename_i fails
        rw [later_iff, not_lt] at fails
        refine ⟨b, rfl, fails, ?_⟩
        intro b' same
        cases same
        exact le_rfl

theorem le_foldl_laterOf {rows : Rows Fleet.Inspection} {best : Option (Nat × Fleet.Inspection)}
    {r : Nat × Fleet.Inspection} (found : rows.foldl laterOf best = some r) :
    (∀ other ∈ rows, stamp other ≤ stamp r) ∧ ∀ b, best = some b -> stamp b ≤ stamp r := by
  induction rows generalizing best with
  | nil =>
      refine ⟨fun _ mem => (by cases mem), ?_⟩
      rintro b rfl
      cases found
      exact le_rfl
  | cons first rows ih =>
      rcases ih found with ⟨rest, chosen⟩
      rcases laterOf_spec best first with ⟨next, is, first_le, best_le⟩
      have next_le := chosen next is
      refine ⟨?_, fun b same => (best_le b same).trans next_le⟩
      intro other mem
      rcases List.mem_cons.mp mem with rfl | mem
      · exact first_le.trans next_le
      · exact rest other mem

/-- The best of a fold is the latest. -/
theorem isLatest_foldl {rows : Rows Fleet.Inspection} {r : Nat × Fleet.Inspection}
    (found : rows.foldl laterOf none = some r) : IsLatest rows r := by
  refine ⟨?_, (le_foldl_laterOf found).1⟩
  rcases Fleet.Firm.mem_of_laterOf found with impossible | listed
  · cases impossible
  · exact listed

/-- `order_by("-inspected_on", "-created_at", "-id")` -/
def newestFirst (a b : Nat × Fleet.Inspection) : Prop := stamp b ≤ stamp a

instance : DecidableRel newestFirst := fun a b => inferInstanceAs (Decidable (stamp b ≤ stamp a))

instance : Std.Total newestFirst := ⟨fun a b => le_total (stamp b) (stamp a)⟩

instance : IsTrans (Nat × Fleet.Inspection) newestFirst := ⟨fun _ _ _ first second => le_trans second first⟩

theorem isLatest_head {rows : Rows Fleet.Inspection} {r : Nat × Fleet.Inspection}
    (found : (List.insertionSort newestFirst rows).head? = some r) : IsLatest rows r := by
  have sorted := List.pairwise_insertionSort newestFirst rows
  have perm := List.perm_insertionSort newestFirst rows
  cases same : List.insertionSort newestFirst rows with
  | nil =>
      rw [same] at found
      cases found
  | cons first rest =>
      rw [same] at found sorted perm
      cases found
      refine ⟨perm.mem_iff.mp List.mem_cons_self, ?_⟩
      intro other mem
      rcases List.mem_cons.mp (perm.mem_iff.mpr mem) with rfl | later
      · exact le_rfl
      · exact (List.pairwise_cons.mp sorted).1 other later

/-! ## Defects -/

inductive NonConformityStatus where
  | open
  | fixed
  | waived
  deriving DecidableEq, Repr

structure NonConformity where
  inspection : Nat
  status : NonConformityStatus
  deriving DecidableEq

def NonConformity.isOpen (defect : NonConformity) : Bool := decide (defect.status = .open)

namespace Register

variable (s : Register) (defects : Rows NonConformity)

/-! ## The views -/

/-- The inspections of a lift. -/
def inspectionsOf (elevator : Nat) : Rows Fleet.Inspection :=
  s.firm.inspections.filter (fun r => decide (r.2.elevator = elevator))

/-- The inspection that `latest` picks in `due`, `with_open_correction` and
`open_correction`. -/
def newest (elevator : Nat) : Option (Nat × Fleet.Inspection) :=
  (List.insertionSort newestFirst (s.inspectionsOf elevator)).head?

/-- `current_inspections` -/
def currentInspections : Rows Fleet.Inspection :=
  s.firm.inspections.filter (fun r => !s.firm.inspections.any (fun later =>
    decide (later.2.elevator = r.2.elevator ∧ r.2.inspectedOn < later.2.inspectedOn)))

def deadlineOf (id : Nat) : Option Date := (s.details.get? id).bind Detail.correctionDeadline

def followsOf (id : Nat) : Option Nat := (s.details.get? id).bind Detail.follows

/-- The label has a deadline that ends in a seal. -/
def isCorrection (r : Nat × Fleet.Inspection) : Bool :=
  decide (r.2.label = .yellow ∨ r.2.label = .red) && (s.deadlineOf r.1).isSome

/-- `order_by("correction_deadline", "id")` -/
def dueBefore (r r' : Nat × Fleet.Inspection) : Prop :=
  let due := fun (r : Nat × Fleet.Inspection) => (s.deadlineOf r.1).elim 0 Date.ordinal
  due r < due r' ∨ (due r = due r' ∧ r.1 ≤ r'.1)

instance : DecidableRel s.dueBefore := fun _ _ => inferInstanceAs (Decidable (_ ∨ (_ ∧ _)))

/-- The candidates of `due` and `correction_deadline_notice`. -/
def corrections : Rows Fleet.Inspection :=
  List.insertionSort s.dueBefore (s.currentInspections.filter s.isCorrection)

/-- The open defects of some inspections. -/
def openDefects (ids : List Nat) : Nat :=
  (defects.filter (fun r => decide (r.2.inspection ∈ ids) && r.2.isOpen)).length

/-- `open_nonconformities`, counted. -/
def openNonconformities (id : Nat) : Nat := openDefects defects [id, (s.followsOf id).getD id]

/-- `still_open`, as `due` adds it up. -/
def openCounts (id : Nat) : Nat :=
  openDefects defects [id] + (s.followsOf id).elim 0 (fun origin => openDefects defects [origin])

/-- The corrections that `correction_deadline_notice` warns of. -/
def noticed : Rows Fleet.Inspection :=
  s.corrections.filter (fun r => decide (s.openNonconformities defects r.1 ≠ 0))

/-- `correction_deadline__lte` -/
def isDueBy (horizon : Date) (r : Nat × Fleet.Inspection) : Bool :=
  (s.deadlineOf r.1).elim false (fun deadline => decide (deadline ≤ horizon))

/-- The corrections that `due` lists up to its horizon. -/
def dueBy (horizon : Date) : Rows Fleet.Inspection :=
  (s.corrections.filter (s.isDueBy horizon)).filter (fun r => decide (s.openCounts defects r.1 ≠ 0))

/-- The deadline "only while a defect is open". -/
def whileOpen (deadline : Option Date) (count : Nat) : Option Date × Nat :=
  if count = 0 ∨ deadline = none then (none, count) else (deadline, count)

/-- `open_correction` of a lift that is not annotated. -/
def openCorrection (elevator : Nat) : Option Date × Nat :=
  match s.newest elevator with
  | none => (none, 0)
  | some latest => whileOpen (s.deadlineOf latest.1) (s.openNonconformities defects latest.1)

/-- `current_inspection_id` and `current_inspection_follows_id` of `with_open_correction`. -/
def annotatedIds (elevator : Nat) : Option Nat × Option Nat :=
  ((s.newest elevator).map Prod.fst, (s.newest elevator).bind (fun latest => s.followsOf latest.1))

/-- `open_correction` of a lift that is. -/
def annotatedCorrection (elevator : Nat) : Option Date × Nat :=
  let ids := s.annotatedIds elevator
  whileOpen ((s.newest elevator).bind (fun latest => s.deadlineOf latest.1))
    (defects.filter (fun r =>
      r.2.isOpen && (decide (ids.1 = some r.2.inspection) || decide (ids.2 = some r.2.inspection)))).length

/-! ## The law -/

/-- The correction is not finished. -/
def isOutstanding (r : Nat × Fleet.Inspection) : Bool :=
  s.isCorrection r && decide (s.openNonconformities defects r.1 ≠ 0)

/-- Wherever the current inspection of a lift is worked out, it is the latest. -/
structure ViewsAgree (elevator : Nat) : Prop where
  latest : ∀ r, s.newest elevator = some r -> IsLatest (s.inspectionsOf elevator) r
  found : (s.newest elevator).isSome = !(s.inspectionsOf elevator).isEmpty
  /-- `sync_elevator` -/
  synced : s.firm.latest elevator = (s.newest elevator).map Prod.snd
  opened : s.annotatedCorrection defects elevator = s.openCorrection defects elevator
  /-- The notices. -/
  warned : ∀ r, (r ∈ s.noticed defects ∧ r.2.elevator = elevator) ↔
    s.newest elevator = some r ∧ s.isOutstanding defects r = true
  /-- The due list, however far ahead it looks. -/
  listed : ∀ horizon r, (r ∈ s.dueBy defects horizon ∧ r.2.elevator = elevator) ↔
    s.newest elevator = some r ∧ s.isOutstanding defects r = true ∧ s.isDueBy horizon r = true

/-- A correction with an open defect is followed by an inspection on a later day, or by
none on its own. -/
def isSettled (elevator : Nat) : Bool :=
  let rows := s.inspectionsOf elevator
  rows.all (fun r => !s.isOutstanding defects r ||
    rows.any (fun other => decide (r.2.inspectedOn < other.2.inspectedOn)) ||
    rows.all (fun other => !later other r))

variable {s defects} {elevator : Nat} {r : Nat × Fleet.Inspection}

theorem isLatest_newest (found : s.newest elevator = some r) : IsLatest (s.inspectionsOf elevator) r :=
  isLatest_head found

theorem isSome_newest : (s.newest elevator).isSome = !(s.inspectionsOf elevator).isEmpty := by
  have perm := List.perm_insertionSort newestFirst (s.inspectionsOf elevator)
  unfold newest
  cases rows : s.inspectionsOf elevator with
  | nil => rfl
  | cons first rest =>
      rw [rows] at perm
      cases sorted : List.insertionSort newestFirst (first :: rest) with
      | nil =>
          rw [sorted] at perm
          cases perm.length_eq
      | cons _ _ => rfl

theorem newest_eq_some (distinct : s.firm.inspections.Distinct) :
    s.newest elevator = some r ↔ IsLatest (s.inspectionsOf elevator) r := by
  refine ⟨isLatest_newest, ?_⟩
  intro last
  cases found : s.newest elevator with
  | none =>
      have some_ := @isSome_newest s elevator
      rw [found, eq_comm, Option.isSome_none, Bool.not_eq_false', List.isEmpty_iff] at some_
      have mem := last.listed
      rw [some_] at mem
      cases mem
  | some other => rw [(isLatest_newest found).unique (distinct.filter _) last]

/-- The lift takes its label from the same inspection. -/
theorem synced_newest (distinct : s.firm.inspections.Distinct) (elevator : Nat) :
    s.firm.latest elevator = (s.newest elevator).map Prod.snd := by
  have same : s.firm.latest elevator = ((s.inspectionsOf elevator).foldl laterOf none).map Prod.snd := rfl
  rw [same]
  cases best : (s.inspectionsOf elevator).foldl laterOf none with
  | none =>
      have empty := Fleet.Firm.isSome_laterOf none (s.inspectionsOf elevator)
      rw [best, Option.isSome_none, Bool.false_or, ← isSome_newest, eq_comm] at empty
      rw [Option.not_isSome_iff_eq_none.mp (Bool.eq_false_iff.mp empty)]
  | some r => rw [(newest_eq_some distinct).mpr (isLatest_foldl best)]

/-- A lift that is annotated has the same open correction. -/
theorem annotated_eq (elevator : Nat) : s.annotatedCorrection defects elevator = s.openCorrection defects elevator := by
  unfold annotatedCorrection openCorrection annotatedIds
  cases s.newest elevator with
  | none =>
      have nothing : defects.filter (fun r => r.2.isOpen &&
          (decide ((none : Option Nat) = some r.2.inspection) || decide (none = some r.2.inspection))) = [] := by
        simp
      simp only [Option.map_none, Option.bind_none]
      rw [nothing]
      rfl
  | some latest =>
      have own : ∀ r ∈ defects, (r.2.isOpen && (decide (some latest.1 = some r.2.inspection) ||
          decide (s.followsOf latest.1 = some r.2.inspection))) =
          (decide (r.2.inspection ∈ [latest.1, (s.followsOf latest.1).getD latest.1]) && r.2.isOpen) := by
        intro r _
        rw [Bool.and_comm]
        congr 1
        cases s.followsOf latest.1 with
        | none => simp [eq_comm]
        | some origin => simp [eq_comm]
      simp only [Option.map_some, Option.bind_some]
      rw [List.filter_congr own]
      rfl

theorem mem_inspectionsOf : r ∈ s.inspectionsOf elevator ↔ r ∈ s.firm.inspections ∧ r.2.elevator = elevator := by
  unfold inspectionsOf
  rw [List.mem_filter, decide_eq_true_iff]

/-- What is due is what no inspection of a later date follows. -/
theorem mem_corrections : (r ∈ s.corrections ∧ r.2.elevator = elevator) ↔
    r ∈ s.inspectionsOf elevator ∧ s.isCorrection r = true ∧
      ∀ other ∈ s.inspectionsOf elevator, other.2.inspectedOn ≤ r.2.inspectedOn := by
  unfold corrections currentInspections
  rw [List.mem_insertionSort, List.mem_filter, List.mem_filter, mem_inspectionsOf]
  simp only [Bool.not_eq_true', List.any_eq_false, decide_eq_true_eq, not_and, not_lt, mem_inspectionsOf]
  constructor
  · rintro ⟨⟨⟨listed, unsuperseded⟩, correction⟩, own⟩
    exact ⟨⟨listed, own⟩, correction, fun other mem => unsuperseded other mem.1 (mem.2.trans own.symm)⟩
  · rintro ⟨⟨listed, own⟩, correction, last⟩
    exact ⟨⟨⟨listed, fun other mem same => last other ⟨mem, same.trans own⟩⟩, correction⟩, own⟩

theorem date_le_of_stamp {a b : Nat × Fleet.Inspection} (before : stamp a ≤ stamp b) :
    a.2.inspectedOn ≤ b.2.inspectedOn := by
  by_contra after
  have reverse : later a b = true := by
    unfold later
    rw [decide_eq_true (not_le.mp after), Bool.true_or]
  exact absurd before (not_le.mpr (later_iff.mp reverse))

/-- The two counts differ, but not in whether there is a defect. -/
theorem openCounts_eq_zero {id : Nat} : s.openCounts defects id = 0 ↔ s.openNonconformities defects id = 0 := by
  unfold openCounts openNonconformities openDefects
  cases s.followsOf id with
  | none => simp
  | some origin =>
      simp only [Option.elim_some, Option.getD_some, Nat.add_eq_zero_iff, List.length_eq_zero_iff,
        List.filter_eq_nil_iff, Bool.and_eq_true, decide_eq_true_eq, List.mem_cons, List.not_mem_nil, or_false]
      constructor
      · rintro ⟨own, followed⟩ r mem ⟨mine | its, isOpen⟩
        · exact own r mem ⟨mine, isOpen⟩
        · exact followed r mem ⟨its, isOpen⟩
      · intro closed
        exact ⟨fun r mem here => closed r mem ⟨Or.inl here.1, here.2⟩,
          fun r mem here => closed r mem ⟨Or.inr here.1, here.2⟩⟩

theorem isOutstanding_iff : s.isOutstanding defects r = true ↔
    s.isCorrection r = true ∧ s.openNonconformities defects r.1 ≠ 0 := by
  unfold isOutstanding
  rw [Bool.and_eq_true, decide_eq_true_iff]

theorem mem_noticed : (r ∈ s.noticed defects ∧ r.2.elevator = elevator) ↔
    r ∈ s.inspectionsOf elevator ∧ s.isOutstanding defects r = true ∧
      ∀ other ∈ s.inspectionsOf elevator, other.2.inspectedOn ≤ r.2.inspectedOn := by
  unfold noticed
  rw [List.mem_filter, decide_eq_true_iff, and_right_comm, mem_corrections, isOutstanding_iff]
  tauto

theorem mem_dueBy {horizon : Date} : r ∈ s.dueBy defects horizon ↔
    r ∈ s.noticed defects ∧ s.isDueBy horizon r = true := by
  unfold dueBy noticed
  rw [List.mem_filter, List.mem_filter, List.mem_filter, decide_eq_true_iff, decide_eq_true_iff, Ne, openCounts_eq_zero,
    and_right_comm]

theorem isSettled_iff : s.isSettled defects elevator = true ↔
    ∀ r ∈ s.inspectionsOf elevator, s.isOutstanding defects r = true ->
    (∀ other ∈ s.inspectionsOf elevator, other.2.inspectedOn ≤ r.2.inspectedOn) ->
    IsLatest (s.inspectionsOf elevator) r := by
  unfold isSettled
  simp only [List.all_eq_true, Bool.or_eq_true, Bool.not_eq_true', List.any_eq_true, decide_eq_true_eq]
  constructor
  · intro settled r mem outstanding last
    rcases settled r mem with (quiet | ⟨other, there, after⟩) | final
    · rw [outstanding] at quiet
      cases quiet
    · exact absurd after (not_lt.mpr (last other there))
    · refine ⟨mem, ?_⟩
      intro other there
      rw [← not_lt, ← later_iff, final other there]
      decide
  · intro latest r mem
    by_cases outstanding : s.isOutstanding defects r = true
    · by_cases last : ∀ other ∈ s.inspectionsOf elevator, other.2.inspectedOn ≤ r.2.inspectedOn
      · right
        intro other there
        rw [← Bool.not_eq_true, later_iff, not_lt]
        exact (latest r mem outstanding last).last other there
      · push Not at last
        exact Or.inl (Or.inr last)
    · exact Or.inl (Or.inl (Bool.eq_false_iff.mpr outstanding))

theorem warned_iff (distinct : s.firm.inspections.Distinct) :
    (∀ r, (r ∈ s.noticed defects ∧ r.2.elevator = elevator) ↔
      s.newest elevator = some r ∧ s.isOutstanding defects r = true) ↔ s.isSettled defects elevator = true := by
  rw [isSettled_iff]
  constructor
  · intro warned r mem outstanding last
    exact isLatest_newest ((warned r).mp (mem_noticed.mpr ⟨mem, outstanding, last⟩)).1
  · intro settled r
    rw [mem_noticed, newest_eq_some distinct]
    constructor
    · rintro ⟨mem, outstanding, last⟩
      exact ⟨settled r mem outstanding last, outstanding⟩
    · rintro ⟨latest, outstanding⟩
      exact ⟨latest.listed, outstanding, fun other mem => date_le_of_stamp (latest.last other mem)⟩

/-- **The views of a lift's current inspection** agree if and only if, of the
inspections on one day, no yellow or red one with an open defect is followed by
another and nothing after that day. -/
theorem views_agree_iff (s : Register) (distinct : s.firm.inspections.Distinct) (defects : Rows NonConformity)
    (elevator : Nat) : s.ViewsAgree defects elevator ↔ s.isSettled defects elevator = true := by
  rw [← warned_iff distinct]
  constructor
  · exact fun agree => agree.warned
  · intro warned
    refine ⟨fun _ => isLatest_newest, isSome_newest, synced_newest distinct elevator, annotated_eq elevator,
      warned, ?_⟩
    intro horizon r
    rw [mem_dueBy, and_right_comm, warned r, and_assoc]

/-- A red label, and the green one of a follow-up on the same day. -/
def reinspected : List Event :=
  let day : Date := .first 24300
  [.other ⟨.createElevator (some .active), isExamination_createElevator⟩,
   .record .periodic ⟨0, day, .red, none, none, "", ""⟩ 0,
   .record .followUp ⟨0, day, .green, some 1, none, "", ""⟩ 1]

/-- A defect of the red one. -/
def unsealed : Rows NonConformity := [(5, ⟨1, .open⟩)]

/-- Before the follow-up there is one view. -/
theorem views_agree_before : (run step empty (reinspected.take 2)).ViewsAgree unsealed 0 :=
  (views_agree_iff _ (by decide +kernel) unsealed 0).mpr (by decide +kernel)

/-- The red one is still due, and the lift is green. -/
theorem reinspection_due : ¬ (run step empty reinspected).ViewsAgree unsealed 0 := by
  intro agree
  have distinct : (run step empty reinspected).firm.inspections.Distinct := by decide +kernel
  have settled := (warned_iff distinct).mp agree.warned
  revert settled
  decide +kernel

end Register

end Inspections
end Shiftlush
